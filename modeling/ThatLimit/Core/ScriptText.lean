import ThatLimit.Core.Cache
import ThatLimit.Core.RedisText
/-!
# The texts of the two scripts (`cache.rs`, `action.rs`)

`LEASE_SCRIPT` and `RELEASE_SCRIPT` as they are sent to Redis, with their keys and arguments as
texts. While the numbers in them are exact they do what `leaseScript` and `releaseScript` say.
-/
namespace ThatLimit

open Lua

/-- `that_limit_cache::Script`. -/
structure Script where
  src : Block
  keys : List String
  args : List String

namespace Script

def new (src : Block) : Script := { src, keys := [], args := [] }

def key (s : Script) (key : String) : Script := { s with keys := s.keys ++ [key] }

def arg (s : Script) (arg : String) : Script := { s with args := s.args ++ [arg] }

/-- `Script::execute`, when Redis answers. -/
def execute (R : Type) [Number R] (s : Script) (r : TextRedis) : Except RedisError Reply × TextRedis :=
  s.src.script R TextRedis.host s.keys s.args r

/-- Keys that have expired make no difference to a script. -/
theorem execute_agree {R : Type} [Number R] {r r' : TextRedis} (s : Script) (h : r.SameLive r') :
    Agrees TextRedis.SameLive (s.execute R r) (s.execute R r') := TextRedis.host_agree.script s.src s.keys s.args h

end Script

/-- `{x, redis.call('PTTL', key), redis.call('PEXPIRETIME', key)}`. -/
def leaseAnswer (x : Expr) : Expr :=
  .table [x, .call [.str "PTTL", .var "key"], .call [.str "PEXPIRETIME", .var "key"]]

/-- `LEASE_SCRIPT` when there is no live key. -/
def leaseOpening : Block :=
  .assign "remaining" (.bin .sub (.var "quota") (.var "lease_size")) <|
  .exec (.call [.str "SETEX", .var "key", .var "default_ttl", .var "remaining"]) <|
  .ret (leaseAnswer (.var "lease_size"))

/-- `LEASE_SCRIPT` when there is one. -/
def leaseTaking : Block :=
  .assign "tokens" (.un .tonumber (.var "current")) <|
  .ite (.bin .le (.var "tokens") (.num 0))
    (.ret (leaseAnswer (.num 0))) <|
  .assign "to_lease" (.bin .min (.var "tokens") (.var "lease_size")) <|
  .exec (.call [.str "DECRBY", .var "key", .var "to_lease"]) <|
  .ret (leaseAnswer (.var "to_lease"))

/-- `LEASE_SCRIPT`. -/
def leaseText : Block :=
  .assign "key" (.key 1) <|
  .assign "lease_size" (.un .tonumber (.arg 1)) <|
  .assign "quota" (.un .tonumber (.arg 2)) <|
  .assign "default_ttl" (.un .tonumber (.arg 3)) <|
  .assign "current" (.call [.str "GET", .var "key"]) <|
  .ite (.un .not (.var "current")) leaseOpening leaseTaking

/-- `RELEASE_SCRIPT`. -/
def releaseText : Block :=
  .assign "key" (.key 1) <|
  .assign "tokens" (.un .tonumber (.arg 1)) <|
  .assign "window" (.un .tonumber (.arg 2)) <|
  .ite (.bin .ne (.call [.str "PEXPIRETIME", .var "key"]) (.var "window"))
    (.ret (.num 0)) <|
  .exec (.call [.str "INCRBY", .var "key", .var "tokens"]) <|
  .ret (.num 1)

/-- The script of `cache::lease`. -/
def Script.lease (key : String) (size quota ttl : Nat) : Script :=
  (((new leaseText).key key).arg (toString size) |>.arg (toString quota)).arg (toString ttl)

/-- The script of `cache::release`. -/
def Script.release (key : String) (tokens : Nat) (window : Int) : Script :=
  ((new releaseText).key key).arg (toString tokens) |>.arg (toString window)

section Exactness

variable {R : Type} [Number R] {db : Db} {now : Nat} {key : String} {leaseSize quota ttl : Nat}

theorem eval_leaseAnswer {env : Env R} {x : Expr} {n : Int} (hkey : env.locals "key" = .str key)
    (hx : ∀ r, x.eval TextRedis.host env r = (.ok (.num (Number.ofInt n)), r)) :
    (leaseAnswer x).eval TextRedis.host env (.ofDb db now) = (.ok (.table [.num (Number.ofInt n),
      .num (Number.ofInt (db.pttl now key)), .num (Number.ofInt (db.pexpiretime now key))]), .ofDb db now) := by
  have hargs (command : String) : Expr.evals TextRedis.host env [.str command, .var "key"] (.ofDb db now) =
      (.ok [.str command, .str key], .ofDb db now) := by
    simp [Expr.evals, Expr.eval, hkey]
  apply Expr.eval_table
  apply Expr.evals_cons (hx _)
  apply Expr.evals_cons (Expr.eval_call (hargs "PTTL") rfl (TextRedis.call_pttl db now key))
  apply Expr.evals_cons (Expr.eval_call (hargs "PEXPIRETIME") rfl (TextRedis.call_pexpiretime db now key))
  rfl

variable [LawfulNumber R]

theorem tonumber_repr {n : Int} (h : Exact n) : UnOp.tonumber.apply (.str n.repr : Value R) = .num (Number.ofInt n) := by
  simp only [UnOp.apply, Value.number?, LawfulNumber.ofString_repr h]

/-- Redis can name the numbers of the entry under the key. -/
def Db.Fits (db : Db) (now : Nat) (key : String) : Prop :=
  Exact (db.pttl now key) ∧ Exact (db.pexpiretime now key) ∧ ∀ n, db.get now key = some n → Exact n

/-- What a run of the lease script leaves, spelled out. -/
def spellLease (db : Db) (now : Nat) : Except RedisError (LeaseReply × Db) → Except RedisError Reply × TextRedis
  | .error e => (.error e, .ofDb db now)
  | .ok (r, db') => (.ok (.array [.int r.leased, .int r.pttl, .int r.window]), .ofDb db' now)

theorem toReply_leaseAnswer {a b c : Int} (ha : Exact a) (hb : Exact b) (hc : Exact c) :
    (Value.table [.num (Number.ofInt a), .num (Number.ofInt b), .num (Number.ofInt c)] : Value R).toReply =
      .array [.int a, .int b, .int c] := by
  simp only [Value.toReply, Value.toReplies, LawfulNumber.toInt_ofInt ha, LawfulNumber.toInt_ofInt hb,
    LawfulNumber.toInt_ofInt hc]

/-- The locals of the lease script once it has asked for the key. -/
def leaseEnv (key : String) (leaseSize quota ttl : Nat) (current : Value R) : Env R :=
  (((((Env.start [key] [toString leaseSize, toString quota, toString ttl]).set "key" (.str key)).set
    "lease_size" (.num (Number.ofInt leaseSize))).set "quota" (.num (Number.ofInt quota))).set
    "default_ttl" (.num (Number.ofInt ttl))).set "current" current

theorem exact_ofNat {n : Nat} (h : n ≤ 2 ^ 53) : Exact n := ⟨by omega, by omega⟩

theorem inRange_of_exact {n : Int} (h : Exact n) : InRange n := by
  unfold Exact at h
  exact ⟨by omega, by omega⟩

theorem run_leaseText (hsize : leaseSize ≤ 2 ^ 53) (hquota : quota ≤ 2 ^ 53) (httl : ttl ≤ 2 ^ 53)
    {current : Value R} (hget : Value.ofReply ((db.get now key).elim .null fun n => .bulk n.repr) = current) :
    leaseText.run TextRedis.host (.start [key] [toString leaseSize, toString quota, toString ttl] : Env R) (.ofDb db now) =
      (Block.ite (.un .not (.var "current")) leaseOpening leaseTaking).run TextRedis.host
        (leaseEnv key leaseSize quota ttl current) (.ofDb db now) := by
  have harg (env : Env R) (i : Nat) {n : Nat} (hn : n ≤ 2 ^ 53) (hi : Value.nth env.args i = (.str (toString n) : Value R)) :
      (Expr.un .tonumber (.arg i)).eval TextRedis.host env (.ofDb db now) =
        (.ok (.num (Number.ofInt n)), .ofDb db now) := by
    have htonumber := tonumber_repr (R := R) (exact_ofNat hn)
    apply (Expr.eval_un (by rw [Expr.eval, hi])).trans
    rw [← htonumber]
    rfl
  have hcall (env : Env R) (hkey : env.locals "key" = .str key) :
      (Expr.call [.str "GET", .var "key"]).eval TextRedis.host env (.ofDb db now) = (.ok current, .ofDb db now) := by
    have hevals : Expr.evals TextRedis.host env [.str "GET", .var "key"] (.ofDb db now) =
        (.ok [.str "GET", .str key], .ofDb db now) := by
      simp [Expr.evals, Expr.eval, hkey]
    apply (Expr.eval_call hevals rfl (TextRedis.call_get db now key)).trans
    rw [← hget]
    rfl
  rw [leaseText, Block.run_assign (v := .str key) rfl, Block.run_assign (harg _ 1 hsize rfl),
    Block.run_assign (harg _ 2 hquota rfl), Block.run_assign (harg _ 3 httl rfl),
    Block.run_assign (hcall _ (by simp [Env.set]))]
  rfl

private theorem eval_setex (hle : leaseSize ≤ quota) (hquota : quota ≤ 2 ^ 53) (httl : ttl ≤ 2 ^ 53)
    {res : Except RedisError Reply} {r' : TextRedis}
    (hcall : TextRedis.host.call ["SETEX", key, (ttl : Int).repr, ((quota : Int) - leaseSize).repr] (.ofDb db now) = (res, r')) :
    (Expr.bin .sub (.var "quota") (.var "lease_size")).eval TextRedis.host
      (leaseEnv key leaseSize quota ttl (.bool false : Value R)) (.ofDb db now) =
        (.ok (.num (Number.ofInt (quota - leaseSize))), .ofDb db now) ∧
    (Expr.call [.str "SETEX", .var "key", .var "default_ttl", .var "remaining"]).eval TextRedis.host
      ((leaseEnv key leaseSize quota ttl (.bool false : Value R)).set "remaining"
        (.num (Number.ofInt (quota - leaseSize)))) (.ofDb db now) = (res.map Value.ofReply, r') := by
  have hremaining : Exact ((quota : Int) - leaseSize) := ⟨by omega, by omega⟩
  have hsub : (Number.sub (Number.ofInt quota) (Number.ofInt leaseSize) : R) = Number.ofInt (quota - leaseSize) :=
    LawfulNumber.sub_ofInt (exact_ofNat hquota) (exact_ofNat (by omega)) hremaining
  constructor
  · apply Expr.eval_bin (by rw [Expr.eval]) (by rw [Expr.eval])
    simp [leaseEnv, Env.set, BinOp.apply, Value.number?, hsub]
  · have hargs : Expr.evals TextRedis.host ((leaseEnv key leaseSize quota ttl (.bool false : Value R)).set "remaining"
        (.num (Number.ofInt (quota - leaseSize)))) [.str "SETEX", .var "key", .var "default_ttl", .var "remaining"]
        (.ofDb db now) = (.ok [.str "SETEX", .str key, .num (Number.ofInt ttl), .num (Number.ofInt (quota - leaseSize))],
          .ofDb db now) := by
      simp [Expr.evals, Expr.eval, leaseEnv, Env.set]
    apply Expr.eval_call hargs _ hcall
    simp [List.mapM_cons, Value.text?, LawfulNumber.toString_ofInt (exact_ofNat httl),
      LawfulNumber.toString_ofInt hremaining]

theorem run_leaseOpening {db' : Db} (hle : leaseSize ≤ quota) (hquota : quota ≤ 2 ^ 53) (httl : ttl ≤ 2 ^ 53)
    (hset : db.setex now key ttl (quota - leaseSize) = .ok db') :
    leaseOpening.run TextRedis.host (leaseEnv key leaseSize quota ttl (.bool false : Value R)) (.ofDb db now) =
      (.ok (some (.table [.num (Number.ofInt leaseSize), .num (Number.ofInt (db'.pttl now key)),
        .num (Number.ofInt (db'.pexpiretime now key))])), .ofDb db' now) := by
  obtain ⟨hremaining, hsetex⟩ := eval_setex (R := R) hle hquota httl
    (TextRedis.call_setex (inRange_of_exact (exact_ofNat httl)) hset)
  rw [leaseOpening, Block.run_assign hremaining, Block.run_exec hsetex]
  apply Block.run_ret
  apply eval_leaseAnswer
  · simp [leaseEnv, Env.set]
  · simp [Expr.eval, leaseEnv, Env.set]

theorem run_leaseOpening_error {e : RedisError} (hle : leaseSize ≤ quota) (hquota : quota ≤ 2 ^ 53) (httl : ttl ≤ 2 ^ 53)
    (hset : db.setex now key ttl (quota - leaseSize) = .error e) :
    leaseOpening.run TextRedis.host (leaseEnv key leaseSize quota ttl (.bool false : Value R)) (.ofDb db now) =
      (.error e, .ofDb db now) := by
  obtain ⟨hremaining, hsetex⟩ := eval_setex (R := R) hle hquota httl
    (TextRedis.call_setex_error (inRange_of_exact (exact_ofNat httl)) hset)
  rw [leaseOpening, Block.run_assign hremaining, Block.run_exec_error hsetex]

variable (key leaseSize quota ttl) in
private theorem eval_tokens {tokens : Int} (h : Exact tokens) (r : TextRedis) :
    (Expr.un .tonumber (.var "current")).eval TextRedis.host
      (leaseEnv key leaseSize quota ttl (.str tokens.repr : Value R)) r = (.ok (.num (Number.ofInt tokens)), r) ∧
    (Expr.bin .le (.var "tokens") (.num 0)).eval TextRedis.host
      ((leaseEnv key leaseSize quota ttl (.str tokens.repr : Value R)).set "tokens" (.num (Number.ofInt tokens))) r =
        (.ok (.bool (decide (tokens ≤ 0))), r) := by
  have hle := LawfulNumber.le_ofInt (R := R) h (exact_ofNat (n := 0) (by omega))
  constructor
  · apply (Expr.eval_un (by rw [Expr.eval])).trans
    rw [← tonumber_repr h]
    simp [leaseEnv, Env.set]
  · apply Expr.eval_bin (by rw [Expr.eval]) (by rw [Expr.eval])
    simpa [leaseEnv, Env.set, BinOp.apply] using hle

theorem run_leaseTaking_drained {tokens : Int} (htokens : Exact tokens) (hzero : tokens ≤ 0) :
    leaseTaking.run TextRedis.host (leaseEnv key leaseSize quota ttl (.str tokens.repr : Value R)) (.ofDb db now) =
      (.ok (some (.table [.num (Number.ofInt 0), .num (Number.ofInt (db.pttl now key)),
        .num (Number.ofInt (db.pexpiretime now key))])), .ofDb db now) := by
  obtain ⟨htonumber, hcompare⟩ := eval_tokens (R := R) key leaseSize quota ttl htokens (.ofDb db now)
  rw [leaseTaking, Block.run_assign htonumber]
  apply Block.run_ite_of_returns hcompare (by simpa [Value.truthy] using hzero)
  apply Block.run_ret
  apply eval_leaseAnswer
  · simp [leaseEnv, Env.set]
  · simp [Expr.eval]

theorem run_leaseTaking {e : Entry} (hsize : leaseSize ≤ 2 ^ 53) (hf : db.find now key = some e) (htokens : Exact e.value)
    (hpos : 0 < e.value) :
    leaseTaking.run TextRedis.host (leaseEnv key leaseSize quota ttl (.str e.value.repr : Value R)) (.ofDb db now) =
      (.ok (some (.table [.num (Number.ofInt (min e.value leaseSize)),
        .num (Number.ofInt ((db.decrby now key (min e.value leaseSize)).pttl now key)),
        .num (Number.ofInt ((db.decrby now key (min e.value leaseSize)).pexpiretime now key))])),
        .ofDb (db.decrby now key (min e.value leaseSize)) now) := by
  obtain ⟨htonumber, hcompare⟩ := eval_tokens (R := R) key leaseSize quota ttl htokens (.ofDb db now)
  have hlt := LawfulNumber.lt_ofInt (R := R) (exact_ofNat hsize) htokens
  have hrange := inRange_of_exact htokens
  unfold Exact at htokens
  have hleased : Exact (min e.value leaseSize) := by
    unfold Exact
    omega
  let env := (leaseEnv key leaseSize quota ttl (.str e.value.repr : Value R)).set "tokens" (.num (Number.ofInt e.value))
  have hmin : (Expr.bin .min (.var "tokens") (.var "lease_size")).eval TextRedis.host env (.ofDb db now) =
      (.ok (.num (Number.ofInt (min e.value leaseSize))), .ofDb db now) := by
    apply Expr.eval_bin (by rw [Expr.eval]) (by rw [Expr.eval])
    by_cases hless : (leaseSize : Int) < e.value
    · simp [env, leaseEnv, Env.set, BinOp.apply, Value.number?, hlt, hless, min_eq_right (Int.le_of_lt hless)]
    · simp [env, leaseEnv, Env.set, BinOp.apply, Value.number?, hlt, hless, min_eq_left (Int.not_lt.mp hless)]
  have hdecrby : (Expr.call [.str "DECRBY", .var "key", .var "to_lease"]).eval TextRedis.host
      (env.set "to_lease" (.num (Number.ofInt (min e.value leaseSize)))) (.ofDb db now) =
      (.ok (.num (Number.ofInt (e.value - min e.value leaseSize))), .ofDb (db.decrby now key (min e.value leaseSize)) now) := by
    have hcall := TextRedis.call_decrby (n := min e.value leaseSize) hf (by omega) hrange (by unfold InRange; omega)
    have hargs : Expr.evals TextRedis.host (env.set "to_lease" (.num (Number.ofInt (min e.value leaseSize))))
        [.str "DECRBY", .var "key", .var "to_lease"] (.ofDb db now) =
        (.ok [.str "DECRBY", .str key, .num (Number.ofInt (min e.value leaseSize))], .ofDb db now) := by
      simp [Expr.evals, Expr.eval, env, leaseEnv, Env.set]
    apply Expr.eval_call hargs _ hcall
    simp [List.mapM_cons, Value.text?, LawfulNumber.toString_ofInt hleased]
  rw [leaseTaking, Block.run_assign htonumber, Block.run_ite_of_false hcompare (by simpa [Value.truthy] using hpos),
    Block.run_assign hmin, Block.run_exec hdecrby]
  apply Block.run_ret
  apply eval_leaseAnswer
  · simp [env, leaseEnv, Env.set]
  · simp [Expr.eval, Env.set]

private theorem execute_lease {db' : Db} {n : Int} (hn : Exact n) (hpttl : Exact (db'.pttl now key))
    (hpexpiretime : Exact (db'.pexpiretime now key))
    (hrun : leaseText.run TextRedis.host (.start [key] [toString leaseSize, toString quota, toString ttl] : Env R)
      (.ofDb db now) = (.ok (some (.table [.num (Number.ofInt n), .num (Number.ofInt (db'.pttl now key)),
        .num (Number.ofInt (db'.pexpiretime now key))])), .ofDb db' now)) :
    (Script.lease key leaseSize quota ttl).execute R (.ofDb db now) =
      spellLease db now (.ok (⟨n, db'.pttl now key, db'.pexpiretime now key⟩, db')) :=
  (Block.script_of_returns hrun).trans (by rw [toReply_leaseAnswer hn hpttl hpexpiretime]; rfl)

/-- The text of the lease script does what `leaseScript` says. -/
theorem leaseText_eq (hle : leaseSize ≤ quota) (hquota : quota ≤ 2 ^ 53) (httl : now + ttl * 1000 ≤ 2 ^ 53)
    (hfits : db.Fits now key) : (Script.lease key leaseSize quota ttl).execute R (.ofDb db now) =
      spellLease db now (leaseScript db now key leaseSize quota ttl) := by
  obtain ⟨hpttl, hpexpiretime, hvalue⟩ := hfits
  have hsize : leaseSize ≤ 2 ^ 53 := Nat.le_trans hle hquota
  have hbegin {current : Value R} (hget : Value.ofReply ((db.get now key).elim .null fun n => .bulk n.repr) = current) :=
    run_leaseText hsize hquota (show ttl ≤ 2 ^ 53 by omega) hget
  have hnot (current : Value R) (r : TextRedis) : (Expr.un .not (.var "current")).eval TextRedis.host
      (leaseEnv key leaseSize quota ttl current) r = (.ok (.bool !current.truthy), r) :=
    Expr.eval_un (by rw [Expr.eval]; rfl)
  unfold leaseScript
  cases hf : db.find now key with
  | none =>
      have hget : db.get now key = none := by rw [Db.get, hf, Option.map_none]
      rw [hget] at hbegin ⊢
      cases hset : db.setex now key ttl (quota - leaseSize) with
      | error e =>
          simp only [hset]
          apply Block.script_of_fails
          apply (hbegin rfl).trans
          exact Block.run_ite_of_fails (hnot ..) rfl (run_leaseOpening_error hle hquota (by omega) hset)
      | ok db' =>
          simp only [hset]
          obtain ⟨hpttl', hpexpiretime'⟩ := Db.expiry_setex hset
          apply execute_lease (exact_ofNat hsize)
          · rw [hpttl']
            unfold Exact
            omega
          · rw [hpexpiretime']
            unfold Exact
            omega
          · rw [hbegin rfl]
            exact Block.run_ite_of_returns (hnot ..) rfl (run_leaseOpening hle hquota (by omega) hset)
  | some e =>
      have hget : db.get now key = some e.value := by rw [Db.get, hf, Option.map_some]
      have htokens := hvalue _ hget
      rw [hget] at hbegin ⊢
      simp only
      split
      · next hzero =>
          apply execute_lease (by unfold Exact; omega) hpttl hpexpiretime
          rw [hbegin rfl, Block.run_ite_of_false (hnot ..) rfl]
          exact run_leaseTaking_drained htokens hzero
      · next hpos =>
          obtain ⟨hpttl', hpexpiretime'⟩ := Db.expiry_decrby hf (min e.value leaseSize)
          apply execute_lease (by unfold Exact at *; omega) (by rwa [hpttl']) (by rwa [hpexpiretime'])
          rw [hbegin rfl, Block.run_ite_of_false (hnot ..) rfl]
          exact run_leaseTaking hsize hf htokens (by omega)

/-- What a run of the release script leaves, spelled out. -/
def spellRelease (now : Nat) (r : Nat × Db) : Except RedisError Reply × TextRedis := (.ok (.int r.1), .ofDb r.2 now)

/-- The text of the release script does what `releaseScript` says. -/
theorem releaseText_eq {tokens : Nat} {window : Int} (hwindow : Exact window) (hnonneg : 0 ≤ window)
    (hfits : db.Fits now key) (hle : tokens ≤ 2 ^ 53) :
    (Script.release key tokens window).execute R (.ofDb db now) =
      spellRelease now (releaseScript db now key tokens window) := by
  obtain ⟨-, hpexpiretime, hvalue⟩ := hfits
  let env : Env R := (((Env.start [key] [toString tokens, toString window]).set "key" (.str key)).set
    "tokens" (.num (Number.ofInt tokens))).set "window" (.num (Number.ofInt window))
  have harg (env : Env R) (i : Nat) {n : Int} (hn : Exact n) (hi : Value.nth env.args i = (.str n.repr : Value R)) :
      (Expr.un .tonumber (.arg i)).eval TextRedis.host env (.ofDb db now) =
        (.ok (.num (Number.ofInt n)), .ofDb db now) := by
    rw [← tonumber_repr hn]
    exact Expr.eval_un (by rw [Expr.eval, hi])
  have hcompare : (Expr.bin .ne (.call [.str "PEXPIRETIME", .var "key"]) (.var "window")).eval TextRedis.host env
      (.ofDb db now) = (.ok (.bool !decide (db.pexpiretime now key = window)), .ofDb db now) := by
    have hargs : Expr.evals TextRedis.host env [.str "PEXPIRETIME", .var "key"] (.ofDb db now) =
        (.ok [.str "PEXPIRETIME", .str key], .ofDb db now) := by
      simp [Expr.evals, Expr.eval, env, Env.set]
    apply Expr.eval_bin (Expr.eval_call hargs rfl (TextRedis.call_pexpiretime db now key)) (by rw [Expr.eval])
    have hbeq := LawfulNumber.beq_ofInt (R := R) hpexpiretime hwindow
    simpa [env, Env.set, BinOp.apply, Value.ofReply, Value.rawEq] using hbeq
  have hbegin : releaseText.run TextRedis.host (.start [key] [toString tokens, toString window]) (.ofDb db now) =
      (Block.ite (.bin .ne (.call [.str "PEXPIRETIME", .var "key"]) (.var "window")) (.ret (.num 0)) <|
        .exec (.call [.str "INCRBY", .var "key", .var "tokens"]) <| .ret (.num 1)).run TextRedis.host env
        (.ofDb db now) := by
    rw [releaseText, Block.run_assign (v := .str key) rfl, Block.run_assign (harg _ 1 (exact_ofNat hle) rfl),
      Block.run_assign (harg _ 2 hwindow rfl)]
  have hanswer {b : Bool} {r : TextRedis} (hrun : releaseText.run TextRedis.host
      (.start [key] [toString tokens, toString window] : Env R) (.ofDb db now) =
        (.ok (some (.num (Number.ofInt b.toInt))), r)) :
      (Script.release key tokens window).execute R (.ofDb db now) = (.ok (.int b.toInt), r) := by
    have hexact : Exact b.toInt := by cases b <;> decide
    exact (Block.script_of_returns hrun).trans (by rw [Value.toReply, LawfulNumber.toInt_ofInt hexact])
  unfold releaseScript
  split
  · next hne =>
      apply hanswer (b := false)
      rw [hbegin]
      exact Block.run_ite_of_returns hcompare (by simpa [Value.truthy] using hne) (Block.run_ret (by rw [Expr.eval]; rfl))
  · next heq =>
      have heq : db.pexpiretime now key = window := by simpa using heq
      cases hf : db.find now key with
      | none =>
          simp only [Db.pexpiretime, hf, Option.map_none, Option.getD_none] at heq
          omega
      | some e =>
          have hget : db.get now key = some e.value := by rw [Db.get, hf, Option.map_some]
          apply hanswer (b := true)
          rw [hbegin, Block.run_ite_of_false hcompare (by simp [Value.truthy, heq])]
          have hargs : Expr.evals TextRedis.host env [.str "INCRBY", .var "key", .var "tokens"] (.ofDb db now) =
              (.ok [.str "INCRBY", .str key, .num (Number.ofInt tokens)], .ofDb db now) := by
            simp [Expr.evals, Expr.eval, env, Env.set]
          have hexact := hvalue _ hget
          have hsum : InRange (e.value + tokens) := by
            unfold Exact at hexact
            exact ⟨by omega, by omega⟩
          have hcall := TextRedis.call_incrby hf (inRange_of_exact (exact_ofNat hle)) (inRange_of_exact hexact) hsum
          rw [Block.run_exec (Expr.eval_call hargs _ hcall)]
          · exact Block.run_ret (by rw [Expr.eval]; rfl)
          · simp [List.mapM_cons, Value.text?, LawfulNumber.toString_ofInt (exact_ofNat hle)]

end Exactness

end ThatLimit
