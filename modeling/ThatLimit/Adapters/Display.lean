import ThatLimit.Adapters.Address
import ThatLimit.Core.Cache
import ThatLimit.Framework.Digits
/-!
# Addresses survive `Display`

The keys of Redis are made of what `Display` writes. Every address is read back from there, so
two buckets never share a key.
-/
namespace ThatLimit.IpAddr

open Digits

/-! ## Numbers and separators -/

theorem reads {radix : Nat} (hradix : radix ≤ 16) : Reads radix (toDigit radix) := by
  have hall : ∀ radix ≤ 16, ∀ d < radix, toDigit radix d.digitChar = some d := by decide
  exact hall radix hradix

/-- Nothing after the number can be taken for one of its digits. -/
def Ends (radix : Nat) (rest : List Char) : Prop := ∀ c ∈ rest.head?, toDigit radix c = none

theorem readNumber_toDigits {radix maxDigits bound n : Nat} {rest : List Char} (hbase : 1 < radix) (hradix : radix ≤ 16)
    (hn : n < bound) (hlen : (Nat.toDigits radix n).length ≤ maxDigits) (hrest : Ends radix rest) (allow : Bool) :
    readNumber radix maxDigits bound allow (Nat.toDigits radix n ++ rest) = some (n, rest) := by
  have hsome : ∀ c ∈ Nat.toDigits radix n, (toDigit radix c).isSome = true :=
    fun c hc => isSome_of_mem_toDigits hbase (reads hradix) hc
  have htake : (Nat.toDigits radix n ++ rest).takeWhile (fun c => (toDigit radix c).isSome) = Nat.toDigits radix n := by
    rw [List.takeWhile_append_of_pos hsome]
    cases rest with
    | nil => simp
    | cons c rest => simp [hrest c rfl]
  have hcount : ((Nat.toDigits radix n).filterMap (toDigit radix)).length = (Nat.toDigits radix n).length :=
    List.filterMap_length_eq_length.mpr hsome
  have hpos : 0 < (Nat.toDigits radix n).length := Nat.length_toDigits_pos
  have hzero : (Nat.toDigits radix n ++ rest).head? = some '0' → (Nat.toDigits radix n).length = 1 := by
    intro hhead
    rw [List.head?_append, List.head?_eq_some_head Nat.toDigits_ne_nil, Option.some_or, ← List.head?_eq_some_head] at hhead
    rw [eq_zero_of_head hbase hhead, Nat.toDigits_zero]
    rfl
  have hvalue : ((Nat.toDigits radix n).filterMap (toDigit radix)).foldl (fun n d => n * radix + d) 0 = n :=
    value_toDigits hbase (reads hradix) n
  unfold readNumber
  simp only [htake, hcount, hvalue, List.drop_left, if_pos hn]
  rw [if_neg (by omega), if_neg]
  simp only [Bool.and_eq_true, beq_iff_eq, decide_eq_true_eq]
  rintro ⟨⟨-, hhead⟩, hlong⟩
  have hone := hzero hhead
  omega

/-- Numbers with a separator between them, and one in front unless `first`. -/
def spell (radix : Nat) (sep : Char) : Bool → List Nat → List Char
  | _, [] => []
  | first, n :: ns => (if first then [] else [sep]) ++ (Nat.toDigits radix n ++ spell radix sep false ns)

theorem intercalate_eq_spell (radix : Nat) (sep : Char) (ns : List Nat) :
    [sep].intercalate (ns.map (Nat.toDigits radix)) = spell radix sep true ns := by
  have htail (n : Nat) (ns : List Nat) :
      [sep].intercalate ((n :: ns).map (Nat.toDigits radix)) = Nat.toDigits radix n ++ spell radix sep false ns := by
    induction ns generalizing n with
    | nil => simp [spell]
    | cons m ns ih =>
        have hrest := ih m
        rw [List.map_cons] at hrest ⊢
        rw [List.map_cons, List.intercalate_cons_cons, hrest]
        simp [spell]
  cases ns with
  | nil => rfl
  | cons n ns => rw [htail, spell, if_pos rfl, List.nil_append]

theorem readSeparator_spell (sep : Char) (first : Bool) (cs : List Char) :
    readSeparator sep first ((if first then [] else [sep]) ++ cs) = some cs := by
  cases first <;> simp [readSeparator]

theorem head_spell {radix : Nat} {sep : Char} {ns : List Nat} {rest : List Char} {P : Char → Prop} (hsep : P sep)
    (hrest : ∀ c ∈ rest.head?, P c) : ∀ c ∈ (spell radix sep false ns ++ rest).head?, P c := by
  cases ns with
  | nil => exact hrest
  | cons n ns =>
      intro c hc
      obtain rfl : sep = c := by simpa [spell] using hc
      exact hsep

/-! ## IPv4 -/

theorem readOctets_spell {ns : List Nat} {rest : List Char} (hns : ∀ n ∈ ns, n < 256) (hrest : Ends 10 rest) (first : Bool)
    (acc : Nat) : readOctets ns.length first acc (spell 10 '.' first ns ++ rest) = some (value 256 acc ns, rest) := by
  induction ns generalizing first acc with
  | nil => rfl
  | cons n ns ih =>
      have hn : n < 256 := hns n List.mem_cons_self
      have hlen : (Nat.toDigits 10 n).length ≤ 3 := (Nat.length_toDigits_le_iff (by decide) (by decide)).mpr (by omega)
      have hends : Ends 10 (spell 10 '.' false ns ++ rest) := head_spell (by decide) hrest
      rw [spell, List.length_cons, readOctets, List.append_assoc, readSeparator_spell, List.append_assoc]
      simp only [Option.bind_eq_bind, Option.bind_some,
        readNumber_toDigits (by decide) (by decide) hn hlen hends false]
      exact ih (fun m hm => hns m (List.mem_cons_of_mem n hm)) false _

theorem displayIpv4_eq (bits : BitVec 32) : (displayIpv4 bits).toList = spell 10 '.' true (places 256 4 bits.toNat) := by
  rw [← intercalate_eq_spell, displayIpv4, String.toList_intercalate, places, List.map_map, List.map_map]
  exact congrArg (List.intercalate ['.']) (List.map_congr_left fun i _ => by simp)

theorem readIpv4_display (bits : BitVec 32) (rest : List Char) (hrest : Ends 10 rest) :
    readIpv4 ((displayIpv4 bits).toList ++ rest) = some (bits.toNat, rest) := by
  have hread := readOctets_spell (fun n => lt_of_mem_places (b := 256) (k := 4) (n := bits.toNat) (by decide)) hrest true 0
  rw [length_places, value_places, Nat.zero_mul, Nat.zero_add,
    Nat.mod_eq_of_lt (show bits.toNat < 256 ^ 4 from bits.isLt)] at hread
  rw [displayIpv4_eq]
  exact hread

theorem readNumber_rest {radix maxDigits bound n : Nat} {allow : Bool} {cs rest : List Char}
    (h : readNumber radix maxDigits bound allow cs = some (n, rest)) :
    rest = cs.dropWhile fun c => (toDigit radix c).isSome := by
  have hcount : ((cs.takeWhile fun c => (toDigit radix c).isSome).filterMap (toDigit radix)).length =
      (cs.takeWhile fun c => (toDigit radix c).isSome).length :=
    List.filterMap_length_eq_length.mpr fun c hc => List.all_eq_true.mp List.all_takeWhile c hc
  have hdrop : cs.drop (cs.takeWhile fun c => (toDigit radix c).isSome).length =
      cs.dropWhile fun c => (toDigit radix c).isSome :=
    calc cs.drop (cs.takeWhile fun c => (toDigit radix c).isSome).length
      _ = ((cs.takeWhile fun c => (toDigit radix c).isSome) ++ (cs.dropWhile fun c => (toDigit radix c).isSome)).drop
          (cs.takeWhile fun c => (toDigit radix c).isSome).length := by rw [List.takeWhile_append_dropWhile]
      _ = cs.dropWhile fun c => (toDigit radix c).isSome := List.drop_left
  unfold readNumber at h
  simp only [hcount, hdrop] at h
  split at h
  · cases h
  · split at h
    · cases h
    · split at h
      · exact (Prod.mk.inj (Option.some.inj h)).2.symm
      · cases h

/-- A number that a colon or nothing follows is not the beginning of an IPv4 address. -/
theorem readIpv4_eq_none (ds : List Char) {rest : List Char} (hds : '.' ∉ ds) (hrest : ∀ c ∈ rest.head?, c = ':') :
    readIpv4 (ds ++ rest) = none := by
  have hhead : ((ds ++ rest).dropWhile fun c => (toDigit 10 c).isSome).head? ≠ some '.' := by
    induction ds with
    | nil =>
        cases rest with
        | nil => simp
        | cons c rest =>
            obtain rfl : c = ':' := hrest c rfl
            simp [show toDigit 10 ':' = none by decide]
    | cons d ds ih =>
        rw [List.mem_cons, not_or] at hds
        obtain ⟨hd, hds⟩ := hds
        rw [List.cons_append, List.dropWhile_cons]
        split
        · exact ih hds
        · simpa using Ne.symm hd
  have hsep {cs : List Char} (hcs : cs.head? ≠ some '.') : readSeparator '.' false cs = none := by
    cases cs with
    | nil => rfl
    | cons c cs => simpa [readSeparator] using hcs
  rw [readIpv4, readOctets]
  simp only [readSeparator, if_true, Option.bind_eq_bind, Option.bind_some, Option.bind_eq_none_iff]
  rintro ⟨octet, cs⟩ hnumber
  simp only [readOctets, hsep (readNumber_rest hnumber ▸ hhead), Option.bind_eq_bind, Option.bind_none]

/-! ## IPv6 -/

theorem dot_notMem_toDigits (n : Nat) : '.' ∉ Nat.toDigits 16 n := by
  intro hmem
  have hsome := isSome_of_mem_toDigits (by decide) (reads (by decide)) hmem
  exact absurd hsome (by decide)

theorem readGroups_cons {n g : Nat} {rest : List Char} (hg : g < 65536) (hrest : ∀ c ∈ rest.head?, c = ':') (first : Bool) :
    readGroups (n + 1) first ((if first then [] else [':']) ++ (Nat.toDigits 16 g ++ rest)) =
      (g :: (readGroups n false rest).1, (readGroups n false rest).2) := by
  have hlen : (Nat.toDigits 16 g).length ≤ 4 := (Nat.length_toDigits_le_iff (by decide) (by decide)).mpr (by omega)
  have hends : Ends 16 rest := by
    intro c hc
    rw [hrest c hc]
    decide
  rw [readGroups, readSeparator_spell]
  simp only [Option.bind_some, readIpv4_eq_none _ (dot_notMem_toDigits g) hrest, ite_self,
    readNumber_toDigits (by decide) (by decide) hg hlen hends true]

theorem readGroups_stop (n : Nat) (first : Bool) {rest : List Char} (hrest : rest = [] ∨ ∃ cs, rest = ':' :: ':' :: cs) :
    readGroups n first rest = ([], false, rest) := by
  cases n with
  | zero => rfl
  | succ n =>
      have hempty : readIpv4 [] = none ∧ readNumber 16 4 65536 true [] = none := ⟨rfl, rfl⟩
      have hcolon (cs : List Char) : readIpv4 (':' :: cs) = none ∧ readNumber 16 4 65536 true (':' :: cs) = none := by
        constructor
        · exact readIpv4_eq_none [] (by simp) (by simp)
        · rw [readNumber]
          simp [show toDigit 16 ':' = none by decide]
      rcases hrest with rfl | ⟨cs, rfl⟩
      · cases first
        · simp [readGroups, readSeparator]
        · simp [readGroups, readSeparator, hempty]
      · cases first <;> simp [readGroups, readSeparator, hcolon]

theorem readGroups_spell {gs : List Nat} {rest : List Char} (hgs : ∀ g ∈ gs, g < 65536)
    (hrest : rest = [] ∨ ∃ cs, rest = ':' :: ':' :: cs) (n : Nat) (first : Bool) :
    readGroups (n + gs.length) first (spell 16 ':' first gs ++ rest) = (gs, false, rest) := by
  have hhead : ∀ c ∈ rest.head?, c = ':' := by
    rcases hrest with rfl | ⟨cs, rfl⟩ <;> simp
  induction gs generalizing first with
  | nil => exact readGroups_stop n first hrest
  | cons g gs ih =>
      rw [spell, List.append_assoc, List.append_assoc, List.length_cons, ← Nat.add_assoc,
        readGroups_cons (hgs g List.mem_cons_self) (head_spell rfl hhead) first,
        ih (fun m hm => hgs m (List.mem_cons_of_mem g hm)) false]

/-- The zeros of a run are there. -/
def ZeroRun (l : List Nat) (run : Nat × Nat) : Prop := ∀ k, k < run.2 → l[run.1 + k]? = some 0

theorem zeroRun_zeroes {l gs : List Nat} {i : Nat} {current longest : Nat × Nat} (hgs : l.drop i = gs)
    (hcurrent : ZeroRun l current) (hend : current.2 ≠ 0 → current.1 + current.2 = i) (hlongest : ZeroRun l longest) :
    ZeroRun l (zeroes gs i current longest) := by
  induction gs generalizing i current longest with
  | nil => exact hlongest
  | cons g gs ih =>
      have hg : l[i]? = some g := by
        rw [← List.head?_drop, hgs]
        rfl
      have hdrop : l.drop (i + 1) = gs := by
        rw [← List.drop_drop, hgs]
        rfl
      unfold zeroes
      split
      · next hzero =>
          rw [hzero] at hg
          have hnew : ZeroRun l (if current.2 = 0 then (i, 1) else (current.1, current.2 + 1)) := by
            intro k hk
            split at hk
            · obtain rfl : k = 0 := by simpa using hk
              simp [*]
            · next hne =>
                rw [if_neg hne]
                by_cases hlast : k = current.2
                · rw [hlast, hend hne, hg]
                · exact hcurrent k (by simp only at hk; omega)
          apply ih hdrop hnew
          · intro _
            split
            · rfl
            · next hne =>
                have hi := hend hne
                simp only
                omega
          · have hlonger {current : Nat × Nat} (h : ZeroRun l current) :
                ZeroRun l (if longest.2 < current.2 then current else longest) := by
              split
              · exact h
              · exact hlongest
            exact hlonger hnew
      · exact ih hdrop (fun k hk => absurd hk (Nat.not_lt_zero k)) (fun h => absurd rfl h) hlongest

theorem ZeroRun.split {l : List Nat} {start len : Nat} (h : ZeroRun l (start, len)) (hpos : 0 < len) :
    start + len ≤ l.length ∧ l = l.take start ++ List.replicate len 0 ++ l.drop (start + len) := by
  have hlast := h (len - 1) (by simp only; omega)
  have hlength := (List.getElem?_eq_some_iff.mp hlast).1
  simp only at hlength
  refine ⟨by omega, ?_⟩
  have hzeros : (l.drop start).take len = List.replicate len 0 := by
    rw [List.eq_replicate_iff]
    refine ⟨by simp; omega, fun g hg => ?_⟩
    obtain ⟨k, hk⟩ := List.mem_iff_getElem?.mp hg
    rw [List.getElem?_take] at hk
    split at hk
    · next hlt =>
        rw [List.getElem?_drop, h k hlt] at hk
        exact (Option.some.inj hk).symm
    · cases hk
  rw [← hzeros, ← List.drop_drop, List.append_assoc, List.take_append_drop, List.take_append_drop]

theorem displaySegments_eq (gs : List Nat) : (displaySegments gs).toList = spell 16 ':' true gs := by
  rw [← intercalate_eq_spell, displaySegments, String.toList_intercalate, List.map_map]
  exact congrArg (List.intercalate [':']) (List.map_congr_left fun g _ => by simp)

theorem readIpv4_spell (gs : List Nat) {rest : List Char} (hrest : ∀ c ∈ rest.head?, c = ':') :
    readIpv4 (spell 16 ':' true gs ++ rest) = none := by
  cases gs with
  | nil => exact readIpv4_eq_none [] List.not_mem_nil hrest
  | cons g gs =>
      rw [spell, if_pos rfl, List.nil_append, List.append_assoc]
      exact readIpv4_eq_none _ (dot_notMem_toDigits g) (head_spell rfl hrest)

theorem readIpv6_spell {gs : List Nat} (hgs : ∀ g ∈ gs, g < 65536) (hlen : gs.length = 8) :
    readIpv6 (spell 16 ':' true gs) = some (gs, []) := by
  have hread := readGroups_spell hgs (.inl rfl) 0 true
  rw [List.append_nil, hlen, Nat.zero_add] at hread
  simp only [readIpv6, hread, hlen, if_true]

theorem readIpv6_colons {head tail : List Nat} (hhead : ∀ g ∈ head, g < 65536) (htail : ∀ g ∈ tail, g < 65536)
    (hlen : head.length + tail.length < 8) :
    readIpv6 (spell 16 ':' true head ++ ':' :: ':' :: spell 16 ':' true tail) =
      some (head ++ List.replicate (8 - head.length - tail.length) 0 ++ tail, []) := by
  have hfirst := readGroups_spell hhead (.inr ⟨spell 16 ':' true tail, rfl⟩) (8 - head.length) true
  rw [show 8 - head.length + head.length = 8 by omega] at hfirst
  have hsecond := readGroups_spell htail (.inl rfl) (8 - (head.length + 1) - tail.length) true
  rw [List.append_nil, show 8 - (head.length + 1) - tail.length + tail.length = 8 - (head.length + 1) by omega] at hsecond
  simp only [readIpv6, hfirst, hsecond, if_neg (show head.length ≠ 8 by omega)]
  rfl

theorem readIpv6_mapped (bits : BitVec 32) :
    readIpv6 ("::ffff:".toList ++ (displayIpv4 bits).toList) =
      some (List.replicate 5 0 ++ [65535, bits.toNat / 65536, bits.toNat % 65536], []) := by
  have htext : "::ffff:".toList ++ (displayIpv4 bits).toList =
      ':' :: ':' :: (Nat.toDigits 16 65535 ++ ':' :: (displayIpv4 bits).toList) := rfl
  have hread := readIpv4_display bits [] (by simp [Ends])
  rw [List.append_nil] at hread
  have hdots : readGroups 6 false (':' :: (displayIpv4 bits).toList) = ([bits.toNat / 65536, bits.toNat % 65536], true, []) := by
    simp [readGroups, readSeparator, hread]
  have hcolon : ∀ c ∈ (':' :: (displayIpv4 bits).toList).head?, c = ':' := by simp
  have hgroup := readGroups_cons (n := 6) (g := 65535) (by decide) hcolon true
  rw [if_pos rfl, List.nil_append, hdots] at hgroup
  rw [htext, readIpv6, readGroups_stop 8 true (.inr ⟨_, rfl⟩)]
  simp [hgroup]

/-! ## Addresses -/

theorem value_segments (bits : BitVec 128) : value 65536 0 (segments bits) = bits.toNat := by
  have hvalue := value_places 65536 8 bits.toNat 0
  rwa [Nat.zero_mul, Nat.zero_add, Nat.mod_eq_of_lt (show bits.toNat < 65536 ^ 8 from bits.isLt)] at hvalue

theorem parse_eq_v6 {s : String} {gs : List Nat} {bits : BitVec 128} (h4 : readIpv4 s.toList = none)
    (h6 : readIpv6 s.toList = some (gs, [])) (hvalue : value 65536 0 gs = bits.toNat) : parse s = some (.v6 bits) := by
  have hfold : gs.foldl (fun n g => n * 65536 + g) 0 = bits.toNat := hvalue
  simp [parse, h4, h6, hfold]

/-- Every address is read back from what is written of it. -/
theorem parse_display (ip : IpAddr) : parse ip.display = some ip := by
  cases ip with
  | v4 bits =>
      have hread := readIpv4_display bits [] (by simp [Ends])
      rw [List.append_nil] at hread
      simp [display, parse, hread]
  | v6 bits =>
      have hgs : ∀ g ∈ segments bits, g < 65536 := fun g => lt_of_mem_places (b := 65536) (k := 8) (by decide)
      have hlen : (segments bits).length = 8 := length_places 65536 8 bits.toNat
      rw [display]
      split
      · next hmapped =>
          apply parse_eq_v6
          · rw [String.toList_append, show "::ffff:".toList = ':' :: ':' :: "ffff:".toList from rfl]
            exact readIpv4_eq_none [] List.not_mem_nil (by simp)
          · rw [String.toList_append]
            exact readIpv6_mapped (bits.setWidth 32)
          · simp only [List.replicate, value, List.foldl_append, List.foldl_cons, List.foldl_nil, BitVec.toNat_setWidth]
            omega
      · have hrun : ZeroRun (segments bits) (zeroes (segments bits) 0 (0, 0) (0, 0)) :=
          zeroRun_zeroes rfl (fun k hk => absurd hk (Nat.not_lt_zero k)) (fun h => absurd rfl h)
            (fun k hk => absurd hk (Nat.not_lt_zero k))
        generalize zeroes (segments bits) 0 (0, 0) (0, 0) = run at hrun
        obtain ⟨start, len⟩ := run
        simp only
        split
        · obtain ⟨hle, hsplit⟩ := hrun.split (by omega)
          apply parse_eq_v6
          · rw [String.toList_append, String.toList_append, displaySegments_eq, List.append_assoc]
            exact readIpv4_spell _ (by simp)
          · rw [String.toList_append, String.toList_append, displaySegments_eq, displaySegments_eq, List.append_assoc]
            exact readIpv6_colons (fun g hg => hgs g (List.mem_of_mem_take hg)) (fun g hg => hgs g (List.mem_of_mem_drop hg))
              (by simp only [List.length_take, List.length_drop]; omega)
          · have hzeros : 8 - ((segments bits).take start).length - ((segments bits).drop (start + len)).length = len := by
              simp only [List.length_take, List.length_drop]
              omega
            rw [hzeros, ← hsplit, value_segments]
        · apply parse_eq_v6
          · rw [displaySegments_eq, ← List.append_nil (spell 16 ':' true (segments bits))]
            exact readIpv4_spell _ (by simp)
          · rw [displaySegments_eq]
            exact readIpv6_spell hgs hlen
          · exact value_segments bits

theorem display_injective : Function.Injective (toString : IpAddr → String) := by
  intro ip ip' h
  have hread : parse ip.display = parse ip'.display := congrArg parse h
  rw [parse_display, parse_display] at hread
  exact Option.some.inj hread

/-- No two buckets share a key of Redis: an address can be read back from its key, and no subject
of a user looks like one. -/
theorem keys_are_kept_apart :
    (∀ ip, parse ip.display = some ip) ∧ Function.Injective (BucketId.toKey : BucketId IpAddr → String) :=
  ⟨parse_display, BucketId.toKey_injective display_injective⟩

end ThatLimit.IpAddr
