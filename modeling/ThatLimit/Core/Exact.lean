import ThatLimit.Core.Range
import ThatLimit.Core.ScriptText
/-!
# Where the numbers of Redis are exact

Up to `2 ^ 53` Lua rounds nothing, and no counter comes near the ends of its range. There the
scripts on the numbers of Redis do what the scripts that count without bounds do.
-/
namespace ThatLimit

open Lua

theorem doubleInt_of_exact {n : Int} (h : Exact n) : doubleInt n = n := doubleInt_of_le h.1 h.2

theorem fits_of_exact {n : Int} (h : Exact n) : FitsI64 n := inRange_of_exact h

theorem LeaseReply.ofLua_of_exact {leased pttl window : Int} (hleased : Exact leased) (hpttl : Exact pttl)
    (hwindow : Exact window) : LeaseReply.ofLua leased pttl window = ⟨leased, pttl, window⟩ := by
  simp only [LeaseReply.ofLua, doubleInt_of_exact hpttl, doubleInt_of_exact hwindow,
    longLong_of_fits (fits_of_exact hleased), longLong_of_fits (fits_of_exact hpttl),
    longLong_of_fits (fits_of_exact hwindow)]

section Scripts

variable {db : Db} {now : Nat} {key : String} {leaseSize quota ttl tokens : Nat} {window : Int}

theorem leaseScriptChecked_eq (hle : leaseSize ≤ quota) (hquota : quota ≤ 2 ^ 53) (hearly : now + ttl * 1000 ≤ 2 ^ 53)
    (hfits : db.Fits now key) :
    leaseScriptChecked db now key leaseSize quota ttl = leaseScript db now key leaseSize quota ttl := by
  obtain ⟨hpttl, hpexpiretime, hvalue⟩ := hfits
  have hsize : leaseSize ≤ 2 ^ 53 := Nat.le_trans hle hquota
  unfold leaseScriptChecked leaseScript
  simp only [double_of_le hsize, double_of_le hquota, double_of_le (show ttl ≤ 2 ^ 53 by omega)]
  cases hf : db.find now key with
  | none =>
      have hget : db.get now key = none := by rw [Db.get, hf, Option.map_none]
      have hremaining : doubleInt (quota - leaseSize : Int) = quota - leaseSize := doubleInt_of_le (by omega) (by omega)
      have hchecked : db.setexChecked now key ttl (quota - leaseSize) = db.setex now key ttl (quota - leaseSize) :=
        if_neg (not_not.mpr ⟨by omega, by omega⟩)
      simp only [hget, hremaining, hchecked]
      cases hset : db.setex now key ttl (quota - leaseSize) with
      | error e => rfl
      | ok db' =>
          obtain ⟨hpttl', hpexpiretime'⟩ := Db.expiry_setex hset
          simp only [hpttl', hpexpiretime', LeaseReply.ofLua_of_exact (exact_ofNat hsize)
            (show Exact (ttl * 1000) from ⟨by omega, by omega⟩)
            (show Exact (now + ttl * 1000) from ⟨by omega, by omega⟩)]
  | some e =>
      have hget : db.get now key = some e.value := by rw [Db.get, hf, Option.map_some]
      have htokens := hvalue _ hget
      simp only [hget, doubleInt_of_exact htokens]
      unfold Exact at htokens
      split
      · rw [LeaseReply.ofLua_of_exact ⟨by omega, by omega⟩ hpttl hpexpiretime]
      · next hpos =>
          have hleased : Exact (min e.value leaseSize) := ⟨by omega, by omega⟩
          have hdecr : db.decrbyChecked now key (min e.value leaseSize) =
              .ok (db.decrby now key (min e.value leaseSize)) :=
            (Db.decrbyChecked_eq_ok_iff hf (by omega)).mpr ⟨fits_of_exact hleased, fits_of_exact htokens,
              ⟨by omega, by omega⟩, by simp only [Db.decrby, Db.incrby, hf, Int.sub_eq_add_neg]⟩
          obtain ⟨hpttl', hpexpiretime'⟩ := Db.expiry_decrby hf (min e.value leaseSize)
          simp only [hdecr, hpttl', hpexpiretime', LeaseReply.ofLua_of_exact hleased hpttl hpexpiretime]

theorem releaseScriptChecked_eq (hwindow : Exact window) (hnonneg : 0 ≤ window) (hfits : db.Fits now key)
    (htokens : tokens ≤ 2 ^ 53) :
    releaseScriptChecked db now key tokens window = .ok (releaseScript db now key tokens window) := by
  obtain ⟨-, hpexpiretime, hvalue⟩ := hfits
  unfold releaseScriptChecked releaseScript
  rw [doubleInt_of_exact hpexpiretime, doubleInt_of_exact hwindow, double_of_le htokens]
  split
  · rfl
  · next hsame =>
      cases hf : db.find now key with
      | none => simp only [Db.pexpiretime, hf, Option.map_none, Option.getD_none] at hsame; omega
      | some e =>
          have hexact := hvalue e.value (by rw [Db.get, hf, Option.map_some])
          unfold Exact at hexact
          have hincr : db.incrbyChecked now key tokens = .ok (db.incrby now key tokens) :=
            (Db.incrbyChecked_eq_ok_iff hf).mpr ⟨⟨by omega, by omega⟩, ⟨by omega, by omega⟩, ⟨by omega, by omega⟩,
              by simp only [Db.incrby, hf]⟩
          rw [hincr]

end Scripts

namespace Server

variable {s : Server} {key : String} {leaseSize quota ttl tokens : Nat} {window : Int}

theorem leaseChecked_eq (hle : leaseSize ≤ quota) (hquota : quota ≤ 2 ^ 53) (hearly : s.now + ttl * 1000 ≤ 2 ^ 53)
    (hfits : s.db.Fits s.now key) : s.leaseChecked key leaseSize quota ttl = s.lease key leaseSize quota ttl := by
  rw [leaseChecked, lease, leaseScriptChecked_eq hle hquota hearly hfits, double_of_le (by omega)]

theorem releaseChecked_eq (hwindow : Exact window) (hnonneg : 0 ≤ window) (hfits : s.db.Fits s.now key)
    (htokens : tokens ≤ 2 ^ 53) : (s.releaseChecked key tokens window).2 = (s.release key tokens window).2 := by
  simp only [releaseChecked, releaseScriptChecked_eq hwindow hnonneg hfits htokens, release]

end Server

end ThatLimit
