import Mathlib.Algebra.Ring.Int.Defs
/-!
# Scripts of a data store

The fragment of Lua that short scripts on a data store are written in: `local` variables,
conditionals with early returns, `KEYS` and `ARGV`, and calls of the commands of a `Host`. An
error ends the script and leaves what its commands have done. Two hosts whose commands agree
along a relation run every script to the same reply.
-/
namespace Lua

/-- The numbers of the interpreter, which are doubles. -/
class Number (R : Type) where
  ofInt : Int → R
  /-- `tonumber` of a string. -/
  ofString : String → Option R
  /-- A number as an argument of a command. -/
  toString : R → String
  /-- A number as an integer reply. -/
  toInt : R → Int
  sub : R → R → R
  lt : R → R → Bool
  le : R → R → Bool
  beq : R → R → Bool

/-- The integers that are doubles, and so are their neighbours. -/
def Exact (n : Int) : Prop := -2 ^ 53 ≤ n ∧ n ≤ 2 ^ 53

instance (n : Int) : Decidable (Exact n) := inferInstanceAs (Decidable (_ ∧ _))

/-- What is known of doubles: up to `2 ^ 53` they count like integers. -/
class LawfulNumber (R : Type) [Number R] : Prop where
  ofString_repr {n : Int} : Exact n → Number.ofString n.repr = some (Number.ofInt n : R)
  toString_ofInt {n : Int} : Exact n → Number.toString (Number.ofInt n : R) = n.repr
  toInt_ofInt {n : Int} : Exact n → Number.toInt (Number.ofInt n : R) = n
  sub_ofInt {m n : Int} : Exact m → Exact n → Exact (m - n) →
    Number.sub (Number.ofInt m : R) (Number.ofInt n) = Number.ofInt (m - n)
  lt_ofInt {m n : Int} : Exact m → Exact n → Number.lt (Number.ofInt m : R) (Number.ofInt n) = decide (m < n)
  le_ofInt {m n : Int} : Exact m → Exact n → Number.le (Number.ofInt m : R) (Number.ofInt n) = decide (m ≤ n)
  beq_ofInt {m n : Int} : Exact m → Exact n → Number.beq (Number.ofInt m : R) (Number.ofInt n) = decide (m = n)

/-- What a command and a script reply. -/
inductive Reply
  | null
  | int (n : Int)
  | bulk (s : String)
  | status (s : String)
  | array (rs : List Reply)

inductive Value (R : Type)
  | nil
  | bool (b : Bool)
  | num (r : R)
  | str (s : String)
  /-- The table `{ok = s}` that a status reply becomes. -/
  | status (s : String)
  | table (vs : List (Value R))

inductive UnOp
  | tonumber
  | not

inductive BinOp
  | sub
  | min
  | le
  | ne

inductive Expr
  | num (n : Int)
  | str (s : String)
  | var (x : String)
  /-- `KEYS[i]`. -/
  | key (i : Nat)
  /-- `ARGV[i]`. -/
  | arg (i : Nat)
  | un (op : UnOp) (e : Expr)
  | bin (op : BinOp) (e e' : Expr)
  /-- `redis.call(...)`. -/
  | call (es : List Expr)
  | table (es : List Expr)

/-- A statement with what comes after it. -/
inductive Block
  | done
  | assign (x : String) (e : Expr) (rest : Block)
  | exec (e : Expr) (rest : Block)
  | ite (c : Expr) (body rest : Block)
  | ret (e : Expr)

/-- The commands a script can call, and the error that a faulty script ends with. -/
structure Host (σ ε : Type) where
  call : List String → σ → Except ε Reply × σ
  fault : String → ε

structure Env (R : Type) where
  keys : List String
  args : List String
  locals : String → Value R

/-- No local has been declared yet. -/
def Env.start {R : Type} (keys args : List String) : Env R := { keys, args, locals := fun _ => .nil }

def Env.set {R : Type} (env : Env R) (x : String) (v : Value R) : Env R :=
  { env with locals := fun y => if y = x then v else env.locals y }

/-- Goes on after a step, unless it has failed. -/
def andThen {σ ε α β : Type} (r : Except ε α × σ) (f : α → σ → Except ε β × σ) : Except ε β × σ :=
  match r with
  | (.ok a, s) => f a s
  | (.error e, s) => (.error e, s)

@[simp] theorem andThen_ok {σ ε α β : Type} (a : α) (s : σ) (f : α → σ → Except ε β × σ) :
    andThen (.ok a, s) f = f a s := rfl

@[simp] theorem andThen_error {σ ε α β : Type} (e : ε) (s : σ) (f : α → σ → Except ε β × σ) :
    andThen (.error e, s) f = (.error e, s) := rfl

section Values

variable {R : Type} [Number R]

mutual

/-- A reply as the script gets to see it; an absent one is `false`. -/
def Value.ofReply : Reply → Value R
  | .null => .bool false
  | .int n => .num (Number.ofInt n)
  | .bulk s => .str s
  | .status s => .status s
  | .array rs => .table (Value.ofReplies rs)

def Value.ofReplies : List Reply → List (Value R)
  | [] => []
  | r :: rs => Value.ofReply r :: Value.ofReplies rs

end

mutual

/-- What a script returns as a reply; an array ends before its first `nil`. -/
def Value.toReply : Value R → Reply
  | .nil => .null
  | .bool b => if b then .int 1 else .null
  | .num r => .int (Number.toInt r)
  | .str s => .bulk s
  | .status s => .status s
  | .table vs => .array (Value.toReplies vs)

def Value.toReplies : List (Value R) → List Reply
  | [] => []
  | .nil :: _ => []
  | v :: vs => Value.toReply v :: Value.toReplies vs

end

def Value.truthy : Value R → Bool
  | .nil => false
  | .bool b => b
  | _ => true

/-- Arithmetic takes numbers and strings that spell one. -/
def Value.number? : Value R → Option R
  | .num r => some r
  | .str s => Number.ofString s
  | _ => none

/-- Commands take strings and numbers. -/
def Value.text? : Value R → Option String
  | .str s => some s
  | .num r => some (Number.toString r)
  | _ => none

/-- Tables of texts count from one. -/
def Value.nth (texts : List String) : Nat → Value R
  | 0 => .nil
  | i + 1 => match texts[i]? with
      | some t => .str t
      | none => .nil

/-- Two tables are never the same one here. -/
def Value.rawEq : Value R → Value R → Bool
  | .nil, .nil => true
  | .bool a, .bool b => a == b
  | .num a, .num b => Number.beq a b
  | .str a, .str b => a == b
  | _, _ => false

def UnOp.apply : UnOp → Value R → Value R
  | .tonumber, v => match v.number? with
      | some r => .num r
      | none => .nil
  | .not, v => .bool !v.truthy

def BinOp.apply : BinOp → Value R → Value R → Except String (Value R)
  | .sub, v, v' => match v.number?, v'.number? with
      | some a, some b => .ok (.num (Number.sub a b))
      | _, _ => .error "attempt to perform arithmetic"
  | .min, v, v' => match v.number?, v'.number? with
      | some a, some b => .ok (.num (if Number.lt b a then b else a))
      | _, _ => .error "bad argument to 'min'"
  | .le, .num a, .num b => .ok (.bool (Number.le a b))
  | .le, .str a, .str b => .ok (.bool (decide (a ≤ b)))
  | .le, _, _ => .error "attempt to compare"
  | .ne, v, v' => .ok (.bool !v.rawEq v')

end Values

section Scripts

variable {R σ ε : Type} [Number R]

/-- A command is given the texts of its arguments. -/
def Host.command (H : Host σ ε) (vs : List (Value R)) (s : σ) : Except ε (Value R) × σ :=
  match vs.mapM Value.text? with
  | some texts => andThen (H.call texts s) fun r s => (.ok (Value.ofReply r), s)
  | none => (.error (H.fault "arguments must be strings or integers"), s)

mutual

def Expr.eval (H : Host σ ε) (env : Env R) : Expr → σ → Except ε (Value R) × σ
  | .num n, s => (.ok (.num (Number.ofInt n)), s)
  | .str t, s => (.ok (.str t), s)
  | .var x, s => (.ok (env.locals x), s)
  | .key i, s => (.ok (Value.nth env.keys i), s)
  | .arg i, s => (.ok (Value.nth env.args i), s)
  | .un op e, s => andThen (Expr.eval H env e s) fun v s => (.ok (op.apply v), s)
  | .bin op e e', s =>
      andThen (Expr.eval H env e s) fun v s => andThen (Expr.eval H env e' s) fun v' s =>
        ((op.apply v v').mapError H.fault, s)
  | .call es, s => andThen (Expr.evals H env es s) fun vs s => H.command vs s
  | .table es, s => andThen (Expr.evals H env es s) fun vs s => (.ok (.table vs), s)

/-- From left to right. -/
def Expr.evals (H : Host σ ε) (env : Env R) : List Expr → σ → Except ε (List (Value R)) × σ
  | [], s => (.ok [], s)
  | e :: es, s =>
      andThen (Expr.eval H env e s) fun v s => andThen (Expr.evals H env es s) fun vs s => (.ok (v :: vs), s)

end

/-- The value a block returns, if it returns. -/
def Block.run (H : Host σ ε) (env : Env R) : Block → σ → Except ε (Option (Value R)) × σ
  | .done, s => (.ok none, s)
  | .assign x e rest, s => andThen (e.eval H env s) fun v s => Block.run H (env.set x v) rest s
  | .exec e rest, s => andThen (e.eval H env s) fun _ s => Block.run H env rest s
  | .ite c body rest, s =>
      andThen (c.eval H env s) fun v s =>
        if v.truthy then
          andThen (Block.run H env body s) fun r s =>
            match r with
            | some v => (.ok (some v), s)
            | none => Block.run H env rest s
        else Block.run H env rest s
  | .ret e, s => andThen (e.eval H env s) fun v s => (.ok (some v), s)

variable (R) in
/-- A script with its keys and arguments; without a `return` it replies nothing. -/
def Block.script (H : Host σ ε) (b : Block) (keys args : List String) (s : σ) : Except ε Reply × σ :=
  andThen (b.run H (.start keys args : Env R) s) fun r s =>
    (.ok ((r.getD .nil).toReply), s)

end Scripts

section Rules

-- every rule is read off the equations of the evaluator
attribute [local simp] Expr.eval Expr.evals Block.run

variable {R σ ε : Type} [Number R] {H : Host σ ε} {env : Env R} {s s' s'' : σ} {e : Expr} {v : Value R} {error : ε}
  {x : String} {body rest : Block}

theorem Expr.evals_cons {es : List Expr} {vs : List (Value R)} (h : e.eval H env s = (.ok v, s'))
    (hs : Expr.evals H env es s' = (.ok vs, s'')) : Expr.evals H env (e :: es) s = (.ok (v :: vs), s'') := by
  rw [Expr.evals, h, andThen_ok, hs, andThen_ok]

theorem Expr.eval_table {es : List Expr} {vs : List (Value R)} (h : Expr.evals H env es s = (.ok vs, s')) :
    (Expr.table es).eval H env s = (.ok (.table vs), s') := by
  rw [Expr.eval, h, andThen_ok]

theorem Expr.eval_call {es : List Expr} {vs : List (Value R)} {texts : List String} {res : Except ε Reply}
    (h : Expr.evals H env es s = (.ok vs, s')) (htexts : vs.mapM Value.text? = some texts)
    (hcall : H.call texts s' = (res, s'')) : (Expr.call es).eval H env s = (res.map Value.ofReply, s'') := by
  rw [Expr.eval, h, andThen_ok, Host.command, htexts]
  simp only [hcall]
  cases res <;> rfl

theorem Expr.eval_un {op : UnOp} (h : e.eval H env s = (.ok v, s')) :
    (Expr.un op e).eval H env s = (.ok (op.apply v), s') := by
  rw [Expr.eval, h, andThen_ok]

theorem Expr.eval_bin {op : BinOp} {e' : Expr} {v' w : Value R} (h : e.eval H env s = (.ok v, s'))
    (h' : e'.eval H env s' = (.ok v', s'')) (hop : op.apply v v' = .ok w) :
    (Expr.bin op e e').eval H env s = (.ok w, s'') := by
  rw [Expr.eval, h, andThen_ok, h', andThen_ok, hop]
  rfl

theorem Block.run_assign (h : e.eval H env s = (.ok v, s')) :
    (Block.assign x e rest).run H env s = rest.run H (env.set x v) s' := by
  rw [Block.run, h, andThen_ok]

theorem Block.run_exec (h : e.eval H env s = (.ok v, s')) :
    (Block.exec e rest).run H env s = rest.run H env s' := by
  rw [Block.run, h, andThen_ok]

theorem Block.run_exec_error (h : e.eval H env s = (.error error, s')) :
    (Block.exec e rest).run H env s = (.error error, s') := by
  rw [Block.run, h, andThen_error]

theorem Block.run_ite_of_false (h : e.eval H env s = (.ok v, s')) (hv : v.truthy = false) :
    (Block.ite e body rest).run H env s = rest.run H env s' := by
  rw [Block.run, h, andThen_ok, hv]
  rfl

theorem Block.run_ite_of_returns {w : Value R} (h : e.eval H env s = (.ok v, s')) (hv : v.truthy = true)
    (hbody : body.run H env s' = (.ok (some w), s'')) :
    (Block.ite e body rest).run H env s = (.ok (some w), s'') := by
  rw [Block.run, h, andThen_ok, if_pos hv, hbody, andThen_ok]

theorem Block.run_ite_of_fails (h : e.eval H env s = (.ok v, s')) (hv : v.truthy = true)
    (hbody : body.run H env s' = (.error error, s'')) :
    (Block.ite e body rest).run H env s = (.error error, s'') := by
  rw [Block.run, h, andThen_ok, if_pos hv, hbody, andThen_error]

theorem Block.run_ret (h : e.eval H env s = (.ok v, s')) : (Block.ret e).run H env s = (.ok (some v), s') := by
  rw [Block.run, h, andThen_ok]

theorem Block.script_of_returns {b : Block} {keys args : List String}
    (h : b.run H (.start keys args : Env R) s = (.ok (some v), s')) :
    b.script R H keys args s = (.ok v.toReply, s') := by
  rw [Block.script, h, andThen_ok, Option.getD_some]

theorem Block.script_of_fails {b : Block} {keys args : List String}
    (h : b.run H (.start keys args : Env R) s = (.error error, s')) :
    b.script R H keys args s = (.error error, s') := by
  rw [Block.script, h, andThen_error]

end Rules

section Agreement

variable {R σ τ ε α β : Type} [Number R] {rel : σ → τ → Prop}

/-- The same result, and related states. -/
def Agrees (rel : σ → τ → Prop) (r : Except ε α × σ) (r' : Except ε α × τ) : Prop := r.1 = r'.1 ∧ rel r.2 r'.2

/-- Every command replies the same in related states and leaves related ones. -/
structure Host.Agree (H : Host σ ε) (H' : Host τ ε) (rel : σ → τ → Prop) : Prop where
  call : ∀ texts s t, rel s t → Agrees rel (H.call texts s) (H'.call texts t)
  fault : ∀ message, H.fault message = H'.fault message

theorem Agrees.andThen {r : Except ε α × σ} {r' : Except ε α × τ} {f : α → σ → Except ε β × σ}
    {f' : α → τ → Except ε β × τ} (h : Agrees rel r r') (hf : ∀ a s t, rel s t → Agrees rel (f a s) (f' a t)) :
    Agrees rel (andThen r f) (andThen r' f') := by
  obtain ⟨res, s⟩ := r
  obtain ⟨res', t⟩ := r'
  obtain ⟨rfl, hrel⟩ := h
  cases res with
  | ok a => exact hf a s t hrel
  | error e => exact ⟨rfl, hrel⟩

variable {H : Host σ ε} {H' : Host τ ε}

theorem Host.Agree.command (h : H.Agree H' rel) (vs : List (Value R)) {s : σ} {t : τ} (hrel : rel s t) :
    Agrees rel (H.command vs s) (H'.command vs t) := by
  unfold Host.command
  split
  · exact (h.call _ s t hrel).andThen fun r s t hrel => ⟨rfl, hrel⟩
  · exact ⟨congrArg Except.error (h.fault _), hrel⟩

mutual

theorem Host.Agree.eval (h : H.Agree H' rel) (env : Env R) :
    ∀ (e : Expr) {s : σ} {t : τ}, rel s t → Agrees rel (e.eval H env s) (e.eval H' env t)
  | .num _, _, _, hrel | .str _, _, _, hrel | .var _, _, _, hrel | .key _, _, _, hrel | .arg _, _, _, hrel =>
      ⟨rfl, hrel⟩
  | .un _ e, _, _, hrel => (h.eval env e hrel).andThen fun _ _ _ hrel => ⟨rfl, hrel⟩
  | .bin op e e', _, _, hrel =>
      (h.eval env e hrel).andThen fun v _ _ hrel => (h.eval env e' hrel).andThen fun v' _ _ hrel =>
        ⟨by rw [show H.fault = H'.fault from funext h.fault], hrel⟩
  | .call es, _, _, hrel => (h.evals env es hrel).andThen fun vs _ _ hrel => h.command vs hrel
  | .table es, _, _, hrel => (h.evals env es hrel).andThen fun _ _ _ hrel => ⟨rfl, hrel⟩

theorem Host.Agree.evals (h : H.Agree H' rel) (env : Env R) :
    ∀ (es : List Expr) {s : σ} {t : τ}, rel s t → Agrees rel (Expr.evals H env es s) (Expr.evals H' env es t)
  | [], _, _, hrel => ⟨rfl, hrel⟩
  | e :: es, _, _, hrel =>
      (h.eval env e hrel).andThen fun _ _ _ hrel => (h.evals env es hrel).andThen fun _ _ _ hrel => ⟨rfl, hrel⟩

end

theorem Host.Agree.run (h : H.Agree H' rel) (b : Block) (env : Env R) {s : σ} {t : τ} (hrel : rel s t) :
    Agrees rel (b.run H env s) (b.run H' env t) := by
  induction b generalizing env s t with
  | done => exact ⟨rfl, hrel⟩
  | assign x e rest ih => exact (h.eval env e hrel).andThen fun v _ _ hrel => ih (env.set x v) hrel
  | exec e rest ih => exact (h.eval env e hrel).andThen fun _ _ _ hrel => ih env hrel
  | ite c body rest ihbody ihrest =>
      apply (h.eval env c hrel).andThen
      intro v s t hrel
      cases v.truthy with
      | false => exact ihrest env hrel
      | true =>
          apply (ihbody env hrel).andThen
          intro r s t hrel
          cases r with
          | none => exact ihrest env hrel
          | some w => exact ⟨rfl, hrel⟩
  | ret e => exact (h.eval env e hrel).andThen fun _ _ _ hrel => ⟨rfl, hrel⟩

/-- A script does not tell apart two hosts whose commands agree. -/
theorem Host.Agree.script (h : H.Agree H' rel) (b : Block) (keys args : List String) {s : σ} {t : τ} (hrel : rel s t) :
    Agrees rel (b.script R H keys args s) (b.script R H' keys args t) :=
  (h.run b _ hrel).andThen fun _ _ _ hrel => ⟨rfl, hrel⟩

end Agreement

end Lua
