import ThatLimit.Concurrent.Books
/-!
# What a shutdown gives back

The worker reads the tokens of a bucket into its snapshot and leaves the bucket where
it is. Requests are served until all releases are done, so a token may be spent after
it was noted.
-/

namespace ThatLimit

open Transition

variable {ι IpAddr : Type} [DecidableEq ι] [DecidableEq IpAddr] [ToString IpAddr] {cfg : Config} {s : Sys ι IpAddr}

/-- No request takes a token from a bucket that the shutdown snapshot has read. -/
def spendsUnnoted (s : Sys ι IpAddr) : Action ι IpAddr → Bool
  | .run t => (s.tasks t).all fun k =>
      let v := s.insts k.inst
      match k.pc with
      | .take => (v.store.buckets.get k.id).all fun bk =>
          bk.isExpired v.now || bk.isEmpty || (s.ledger.grants[v.origin k.id]?).all fun x => x.noted.isNone
      | _ => true
  | _ => true

/-- What was spent of a lease and what a shutdown put back of it come to no more than the lease
handed out. Tokens are counted as the instances send them; beyond `2 ^ 53` Lua rounds what arrives. -/
theorem lease_given_once (hs : ReachWhen (sys cfg) (spendsUnnoted · ·) s) {x : Grant ι IpAddr}
    (hx : x ∈ s.ledger.grants) : x.spent + x.putBack ≤ x.tokens := by
  have sim : Simulation (sys cfg) (spendsUnnoted · ·) (accounts cfg) SpendsUnnoted
      (Sys.account : Sys ι IpAddr → _) := by
    refine account_simulation fun s a act hg hspend => ?_
    cases act with
    | spend i b =>
        intro l y hl hy
        obtain ⟨t, k, bk, rfl, hk, rfl, rfl, hpc, hb, hlive, htokens⟩ := hspend i b rfl
        obtain rfl : ⟨bk.tokens, (s.insts k.inst).origin k.id⟩ = l := by simpa [Sys.account, hb] using hl
        have hy' : s.ledger.grants[(s.insts k.inst).origin k.id]? = some y := hy
        simpa [spendsUnnoted, hk, hpc, hb, hlive, htokens, hy'] using hg
    | _ => trivial
  exact spent_and_putBack (sim.reach hs) hx

/-- One request, then a shutdown with all its steps. -/
def quietShutdown : List (Action Unit String) :=
  [.spawn 0 () testUser, .run 0, .run 0, .run 0, .eval 0 .answers, .run 0, .run 0, .run 0, .run 0, .run 0,
    .shutdown () [testUser], .visit (), .visit (), .release () 0 .answers]

/-- A token is spent before the shutdown and the others are given back. -/
theorem lease_given_once_at_rest : ∃ s, (sys Config.cleaning).exec (testStart Config.cleaning) quietShutdown = some s ∧
    ∃ x ∈ s.ledger.grants, x.putBack = 1999 ∧ x.spent + x.putBack ≤ x.tokens := by
  have hrun : ((sys Config.cleaning).execWhen spendsUnnoted (testStart Config.cleaning) quietShutdown).map
      (fun s => s.ledger.grants) = some [⟨(), testUser, 1, 60000, 2000, true, 1, some 1999, true, some (1, 1999)⟩] := rfl
  obtain ⟨s, hs, hgrants⟩ := Option.map_eq_some_iff.mp hrun
  have hx := hgrants.symm ▸ List.mem_singleton_self (_ : Grant Unit String)
  exact ⟨s, System.exec_of_execWhen hs, _, hx, rfl, lease_given_once ((testStart_init _).execWhen _ hs) hx⟩

/-- The same with a second request between the snapshot and its release. -/
def busyShutdown : List (Action Unit String) :=
  [.spawn 0 () testUser, .run 0, .run 0, .run 0, .eval 0 .answers, .run 0, .run 0, .run 0, .run 0, .run 0,
    .shutdown () [testUser], .visit (), .spawn 1 () testUser, .run 1, .run 1, .visit (), .release () 0 .answers]

/-- Of 2000 tokens two are spent and 1999 come back. -/
theorem noted_token_is_spent : ∃ s, (sys Config.cleaning).exec (testStart Config.cleaning) busyShutdown = some s ∧
    Reach (sys Config.cleaning) s ∧
    ∃ x ∈ s.ledger.grants, x.tokens = 2000 ∧ x.spent = 2 ∧ x.putBack = 1999 ∧ ¬ x.spent + x.putBack ≤ x.tokens := by
  have hrun : ((sys Config.cleaning).exec (testStart Config.cleaning) busyShutdown).map (fun s => s.ledger.grants) =
      some [⟨(), testUser, 1, 60000, 2000, true, 2, some 1999, true, some (1, 1999)⟩] := rfl
  obtain ⟨s, hs, hgrants⟩ := Option.map_eq_some_iff.mp hrun
  have hx := hgrants.symm ▸ List.mem_singleton_self (_ : Grant Unit String)
  exact ⟨s, hs, Reach.exec (testStart_init _) _ hs, _, hx, rfl, rfl, rfl, by decide⟩

end ThatLimit
