import ThatLimit.Concurrent.Steps
import ThatLimit.Framework.Broadcast
/-!
# When the server is told to stop (`main.rs`)

`main` gives the adapter the future `shutdown_signal`, which it runs next to the cleanup
task of the store. Both talk over one broadcast channel, on which each hears itself as
well. A `select!` whose pattern does not match a message stops listening to the channel
until its interval ticks. This is the Unix build.
-/

namespace ThatLimit

open Transition

variable {ι IpAddr : Type}

inductive Command
  | shutdown
  | cleanupComplete
  deriving DecidableEq, Repr

/-- What `shutdown_signal` listens for. -/
inductive Signal
  | ctrlC
  | sigterm
  deriving DecidableEq, Repr

/-- Where `shutdown_signal` stands. -/
inductive Phase
  /-- Not polled yet. -/
  | created
  /-- In the `select!` over the two signals. -/
  | listening
  | signalled
  /-- In the last loop; `deaf` when its `select!` has had a message that does not match. -/
  | looping (deaf : Bool)
  | done
  deriving DecidableEq, Repr

/-- The process of instance `i` within the system, with the channel between its two tasks. -/
structure Process (ι IpAddr : Type) where
  sys : Sys ι IpAddr
  channel : Channel Command
  /-- `shutdown_rx` of the cleanup task. -/
  taskNext : Nat
  /-- The `select!` of the cleanup task has had a message that does not match. -/
  taskDeaf : Bool
  /-- The cleanup task has sent its last message. -/
  taskOver : Bool
  /-- Chunk `c` waits for the answer to its release. -/
  inFlight : Nat → Bool
  phase : Phase
  /-- `rx` of `shutdown_signal`. -/
  mainNext : Nat
  /-- The signals that have come since their listeners were installed. -/
  received : Signal → Bool

inductive Event (ι IpAddr : Type)
  /-- Anything in the system but what the events below stand for. -/
  | sys (a : Action ι IpAddr)
  | taskRecv (order : List (BucketId IpAddr))
  | taskTick (order : List (BucketId IpAddr))
  /-- The next release of chunk `c` goes out. -/
  | begin (c : Nat)
  | finish (c : Nat) (link : Link)
  | complete
  /-- The first poll of `shutdown_signal`. -/
  | poll
  | signal (sig : Signal)
  /-- The branch of a signal completes. -/
  | wake (sig : Signal)
  | send
  | mainTick
  | mainRecv

/-- The doings of the cleanup task of `i` that wait for a message, its interval or Redis. -/
def Action.awaits [DecidableEq ι] (i : ι) : Action ι IpAddr → Bool
  | .tick j _ | .shutdown j _ | .release j _ _ => decide (j = i)
  | _ => false

namespace Process

variable [DecidableEq ι] [DecidableEq IpAddr] [ToString IpAddr]

/-- Every instance has just been built by `Store::new`, and `main` has built the future. -/
def start (cfg : Config) (clock : ι → Nat) (now : Nat) : Process ι IpAddr where
  sys := .start cfg clock now
  channel := .new 10
  taskNext := 0
  taskDeaf := false
  taskOver := false
  inFlight _ := false
  phase := .created
  mainNext := 0
  received _ := false

/-- The branch of the channel in the cleanup task. -/
def taskRecv (s : Process ι IpAddr) (cfg : Config) (i : ι) (order : List (BucketId IpAddr)) :
    Option (Process ι IpAddr) :=
  match (s.sys.insts i).worker with
  | .idle =>
      -- `tokio::time::interval` panics on a period of zero
      if s.taskDeaf || cfg.cleanup.interval == 0 then none
      else
        match s.channel.recv s.taskNext with
        | some (.ok .shutdown, taskNext) => (s.sys.shutdown i order).map fun sys => { s with sys, taskNext }
        | some (_, taskNext) => some { s with taskNext, taskDeaf := true }
        | none => none
  | _ => none

def taskTick (s : Process ι IpAddr) (cfg : Config) (i : ι) (order : List (BucketId IpAddr)) :
    Option (Process ι IpAddr) :=
  if cfg.cleanup.interval = 0 then none
  else (s.sys.tick i order).map fun sys => { s with sys, taskDeaf := false }

def begin (s : Process ι IpAddr) (i : ι) (c : Nat) : Option (Process ι IpAddr) :=
  match (s.sys.insts i).worker with
  | .releasing chunks =>
      match chunks[c]? with
      | some (_ :: _) => if s.inFlight c then none else some { s with inFlight := Function.update s.inFlight c true }
      | _ => none
  | _ => none

def finish (s : Process ι IpAddr) (i : ι) (c : Nat) (link : Link) : Option (Process ι IpAddr) :=
  if s.inFlight c then
    (s.sys.release i c link).map fun sys => { s with sys, inFlight := Function.update s.inFlight c false }
  else none

/-- The cleanup task is past its loop. -/
def complete (s : Process ι IpAddr) (i : ι) : Option (Process ι IpAddr) :=
  match (s.sys.insts i).worker with
  | .complete => if s.taskOver then none else some { s with channel := s.channel.send .cleanupComplete, taskOver := true }
  | _ => none

/-- Without a sender, `shutdown_signal` returns at once. -/
def poll (s : Process ι IpAddr) (cfg : Config) : Option (Process ι IpAddr) :=
  match s.phase with
  | .created =>
      if cfg.cleanup.enabled then some { s with phase := .listening, mainNext := s.channel.subscribe }
      else some { s with phase := .done }
  | _ => none

/-- A branch completes with its signal, and also when its listener could not be installed. -/
def wake (s : Process ι IpAddr) (listens : Signal → Bool) (sig : Signal) : Option (Process ι IpAddr) :=
  match s.phase with
  | .listening => if s.received sig || !listens sig then some { s with phase := .signalled } else none
  | _ => none

def send (s : Process ι IpAddr) : Option (Process ι IpAddr) :=
  match s.phase with
  | .signalled => some { s with phase := .looping false, channel := s.channel.send .shutdown }
  | _ => none

def mainTick (s : Process ι IpAddr) : Option (Process ι IpAddr) :=
  match s.phase with
  | .looping _ => some { s with phase := .looping false }
  | _ => none

def mainRecv (s : Process ι IpAddr) : Option (Process ι IpAddr) :=
  match s.phase with
  | .looping false =>
      match s.channel.recv s.mainNext with
      | some (.ok .cleanupComplete, mainNext) => some { s with phase := .done, mainNext }
      | some (_, mainNext) => some { s with phase := .looping true, mainNext }
      | none => none
  | _ => none

def next (cfg : Config) (listens : Signal → Bool) (i : ι) (s : Process ι IpAddr) :
    Event ι IpAddr → Option (Process ι IpAddr)
  | .sys a => if a.awaits i then none else (s.sys.next cfg a).map fun sys => { s with sys }
  | .taskRecv order => s.taskRecv cfg i order
  | .taskTick order => s.taskTick cfg i order
  | .begin c => s.begin i c
  | .finish c link => s.finish i c link
  | .complete => s.complete i
  | .poll => s.poll cfg
  | .signal sig =>
      if s.phase ≠ .created ∧ listens sig = true then some { s with received := Function.update s.received sig true }
      else none
  | .wake sig => s.wake listens sig
  | .send => s.send
  | .mainTick => s.mainTick
  | .mainRecv => s.mainRecv

/-- Ctrl-C or SIGTERM has been received. -/
def Signalled (s : Process ι IpAddr) : Prop := ∃ sig, s.received sig = true

/-- The shutdown branch of `i` is through with all its releases. -/
def Released (s : Process ι IpAddr) (i : ι) : Prop :=
  (s.sys.insts i).worker = .complete ∧ ∀ c, s.inFlight c = false

end Process

/-- The runs of the process of instance `i`; `listens` says which signals it can install listeners for. -/
def process [DecidableEq ι] [DecidableEq IpAddr] [ToString IpAddr] (cfg : Config) (listens : Signal → Bool) (i : ι) :
    System (Process ι IpAddr) (Event ι IpAddr) where
  init s := ∃ clock now, s = Process.start cfg clock now
  next := Process.next cfg listens i

/-- A worker that waits for a message or a release, or is through. -/
def Worker.Steady : Worker IpAddr → Prop
  | .idle | .complete => True
  | .releasing chunks => ¬chunks.all List.isEmpty = true
  | _ => False

namespace Sys

variable [DecidableEq ι] [DecidableEq IpAddr] {cfg : Config} {s s' : Sys ι IpAddr} {a : Action ι IpAddr} {i : ι}

private theorem plan_of_steady {worker : Worker IpAddr} {j : ι} (h : (s.insts i).worker.Steady)
    (ha : a.awaits i = false) (hp : s.Plans j a worker) :
    ((s.setWorker j worker).insts i).worker = (s.insts i).worker := by
  by_cases hij : i = j
  · subst hij
    cases hp with
    | tick hw | shutdown hw | nothingHeld hw | unreachable hw => simp [Action.awaits] at ha
    | collect hw | keep hw | collected hw | noneExpired hw | swept hw | skip hw | noted hw | noneNoted hw =>
        rw [hw] at h
        cases h
    | released hw hempty =>
        rw [hw] at h
        exact absurd hempty h
  · simp [hij]

variable [ToString IpAddr]

/-- Nobody else moves the worker of `i`, and it does not move by itself while it waits. -/
theorem worker_of_steady (h : (s.insts i).worker.Steady) (ha : a.awaits i = false) (hs : Step cfg s a s') :
    (s'.insts i).worker = (s.insts i).worker := by
  cases hs with
  | spawn | move | rejected | script | unreachable | refusedAbsent | takeAbsent | cancel | orphan | redisElapse
    | tickNothing => rfl
  | claim | refused | insert | unclaim | takeEmpty | spend | remove | elapse =>
      refine worker_update rfl ?_ i
      rfl
  | @unclaimNone t k n res hk hpc hc =>
      have hsame : ((s.setStore k.inst ((s.insts k.inst).store.unclaim k.id)).insts i).worker = (s.insts i).worker := by
        refine worker_update rfl ?_ i
        rfl
      cases res with
      | ok _ => exact hsame
      | error e => exact hsame
  | @notify t k n res hk hpc => cases res <;> rfl
  | plan hp => exact plan_of_steady h ha hp
  | @note j b todo found bk hw hb ht hl =>
      by_cases hij : i = j
      · subst hij
        rw [hw] at h
        cases h
      · simp [hij]
  | @sweep j c b chunks rest hw hc =>
      by_cases hij : i = j
      · subst hij
        rw [hw] at h
        cases h
      · simp [hij]
  | @release j c link chunks p rest hw hc =>
      have hij : i ≠ j := by
        rintro rfl
        simp [Action.awaits] at ha
      simp [hij]

end Sys

namespace Process

variable {cfg : Config} {listens : Signal → Bool} {i : ι} {s s' : Process ι IpAddr}

/-- How far each side is when it acts. -/
structure Orderly (cfg : Config) (listens : Signal → Bool) (i : ι) (s : Process ι IpAddr) : Prop where
  flying : ∀ c, s.inFlight c = true → ∃ chunks p rest, (s.sys.insts i).worker = .releasing chunks ∧
    chunks[c]? = some (p :: rest)
  told : .cleanupComplete ∈ s.channel.sent → (s.sys.insts i).worker = .complete
  parked : cfg.cleanup.interval = 0 → (s.sys.insts i).worker = .idle
  done : s.phase = .done → .cleanupComplete ∈ s.channel.sent
  woken : (∀ sig, listens sig = true) → s.phase ≠ .created → s.phase ≠ .listening → s.Signalled

theorem Orderly.leave {sys : Sys ι IpAddr} {taskNext : Nat} {taskDeaf : Bool} (h : s.Orderly cfg listens i)
    (hidle : (s.sys.insts i).worker = .idle) (hinterval : cfg.cleanup.interval ≠ 0) :
    Orderly cfg listens i { s with sys, taskNext, taskDeaf } where
  flying c hc := by
    obtain ⟨chunks, p, rest, hw, -⟩ := h.flying c hc
    rw [hidle] at hw
    cases hw
  told hsent := by
    have hw := h.told hsent
    rw [hidle] at hw
    cases hw
  parked hzero := absurd hzero hinterval
  done := h.done
  woken := h.woken

theorem Orderly.begin {c : Nat} (h : s.Orderly cfg listens i) (hs : s.begin i c = some s') :
    s'.Orderly cfg listens i := by
  unfold Process.begin at hs
  split at hs
  · next chunks hw =>
      split at hs
      · next p rest hchunk =>
          rw [Option.ite_none_left_eq_some] at hs
          obtain ⟨-, hs⟩ := hs
          cases hs
          refine ⟨fun c' hc' => ?_, h.told, h.parked, h.done, h.woken⟩
          by_cases hcc : c' = c
          · subst hcc
            exact ⟨chunks, p, rest, hw, hchunk⟩
          · exact h.flying c' (by simpa [hcc] using hc')
      · cases hs
  · cases hs

theorem Orderly.complete (h : s.Orderly cfg listens i) (hs : s.complete i = some s') : s'.Orderly cfg listens i := by
  unfold Process.complete at hs
  split at hs
  · next hw =>
      rw [Option.ite_none_left_eq_some] at hs
      obtain ⟨-, hs⟩ := hs
      cases hs
      exact ⟨h.flying, fun _ => hw, h.parked, fun _ => by simp, h.woken⟩
  · cases hs

theorem Orderly.main {phase : Phase} {mainNext : Nat} (h : s.Orderly cfg listens i) (hdone : phase ≠ .done)
    (hwoken : (∀ sig, listens sig = true) → phase ≠ .listening → s.Signalled) :
    Orderly cfg listens i { s with phase, mainNext } :=
  ⟨h.flying, h.told, h.parked, fun hphase => absurd hphase hdone, fun hlistens _ => hwoken hlistens⟩

theorem Orderly.signal {sig : Signal} (h : s.Orderly cfg listens i) :
    Orderly cfg listens i { s with received := Function.update s.received sig true } :=
  ⟨h.flying, h.told, h.parked, h.done, fun _ _ _ => ⟨sig, Function.update_self ..⟩⟩

theorem Orderly.send (h : s.Orderly cfg listens i) (hs : s.send = some s') : s'.Orderly cfg listens i := by
  unfold Process.send at hs
  split at hs
  · next hphase =>
      cases hs
      have hsent : .cleanupComplete ∈ (s.channel.send .shutdown).sent ↔ .cleanupComplete ∈ s.channel.sent := by simp
      exact ⟨h.flying, fun hs => h.told (hsent.mp hs), h.parked, (nomatch ·),
        fun hlistens _ _ => h.woken hlistens (by simp [hphase]) (by simp [hphase])⟩
  · cases hs

theorem Orderly.poll (henabled : cfg.cleanup.enabled = true) (h : s.Orderly cfg listens i)
    (hs : s.poll cfg = some s') : s'.Orderly cfg listens i := by
  unfold Process.poll at hs
  split at hs
  · rw [if_pos henabled] at hs
    cases hs
    exact h.main (by simp) fun _ hphase => absurd rfl hphase
  · cases hs

theorem Orderly.wake {sig : Signal} (h : s.Orderly cfg listens i) (hs : s.wake listens sig = some s') :
    s'.Orderly cfg listens i := by
  unfold Process.wake at hs
  split at hs
  · rw [Option.ite_none_right_eq_some] at hs
    obtain ⟨hsig, hs⟩ := hs
    cases hs
    refine h.main (by simp) fun hlistens _ => ⟨sig, ?_⟩
    simpa [hlistens sig] using hsig
  · cases hs

theorem Orderly.mainTick (h : s.Orderly cfg listens i) (hs : s.mainTick = some s') : s'.Orderly cfg listens i := by
  unfold Process.mainTick at hs
  split at hs
  · next hphase =>
      cases hs
      exact h.main (by simp) fun hlistens _ => h.woken hlistens (by simp [hphase]) (by simp [hphase])
  · cases hs

theorem Orderly.mainRecv (h : s.Orderly cfg listens i) (hs : s.mainRecv = some s') : s'.Orderly cfg listens i := by
  unfold Process.mainRecv at hs
  split at hs
  · next hphase =>
      have hwoken : (∀ sig, listens sig = true) → s.Signalled := fun hlistens =>
        h.woken hlistens (by simp [hphase]) (by simp [hphase])
      split at hs
      · next hrecv =>
          cases hs
          exact ⟨h.flying, h.told, h.parked, fun _ => Channel.mem_of_recv hrecv, fun hlistens _ _ => hwoken hlistens⟩
      · cases hs
        exact h.main (by simp) fun hlistens _ => hwoken hlistens
      · cases hs
  · cases hs

theorem Orderly.released (h : s.Orderly cfg listens i) (hdone : s.phase = .done) : s.Released i := by
  have hw := h.told (h.done hdone)
  refine ⟨hw, fun c => ?_⟩
  by_contra hc
  obtain ⟨chunks, p, rest, hw', -⟩ := h.flying c (by simpa using hc)
  rw [hw] at hw'
  cases hw'

variable [DecidableEq ι]

section Messages

variable [DecidableEq IpAddr]

theorem Orderly.taskRecv {order : List (BucketId IpAddr)} (h : s.Orderly cfg listens i)
    (hs : s.taskRecv cfg i order = some s') : s'.Orderly cfg listens i := by
  unfold Process.taskRecv at hs
  split at hs
  · next hidle =>
      split at hs
      · cases hs
      · next hlistens =>
          have hinterval : cfg.cleanup.interval ≠ 0 := by
            intro hzero
            simp [hzero] at hlistens
          split at hs
          · obtain ⟨sys, -, rfl⟩ := Option.map_eq_some_iff.mp hs
            exact h.leave hidle hinterval
          · cases hs
            exact h.leave hidle hinterval
          · cases hs
  · cases hs

theorem Orderly.taskTick {order : List (BucketId IpAddr)} (h : s.Orderly cfg listens i)
    (hs : s.taskTick cfg i order = some s') : s'.Orderly cfg listens i := by
  rw [Process.taskTick, Option.ite_none_left_eq_some] at hs
  obtain ⟨hinterval, hs⟩ := hs
  obtain ⟨sys, htick, rfl⟩ := Option.map_eq_some_iff.mp hs
  unfold Sys.tick at htick
  split at htick
  · next hidle => exact h.leave hidle hinterval
  · cases htick

end Messages

variable [ToString IpAddr]

theorem worker_of_release {S S' : Sys ι IpAddr} {c : Nat} {link : Link} (hs : S.release i c link = some S') :
    ∃ chunks rest, (S.insts i).worker = .releasing chunks ∧ (S'.insts i).worker = .releasing (chunks.set c rest) := by
  unfold Sys.release at hs
  split at hs
  · next chunks hw =>
      split at hs
      · next p rest hchunk =>
          refine ⟨chunks, rest, hw, ?_⟩
          split at hs
          · cases hs
            simp
          · cases hs
            simp
      · cases hs
  · cases hs

theorem Orderly.finish {c : Nat} {link : Link} (h : s.Orderly cfg listens i) (hs : s.finish i c link = some s') :
    s'.Orderly cfg listens i := by
  rw [Process.finish, Option.ite_none_right_eq_some] at hs
  obtain ⟨-, hs⟩ := hs
  obtain ⟨S', hrelease, rfl⟩ := Option.map_eq_some_iff.mp hs
  obtain ⟨chunks, rest, hw, hw'⟩ := worker_of_release hrelease
  refine ⟨fun c' hc' => ?_, fun hsent => ?_, fun hzero => ?_, h.done, h.woken⟩
  · by_cases hcc : c' = c
    · subst hcc
      simp at hc'
    · obtain ⟨chunks', p, rest', hw'', hchunk⟩ := h.flying c' (by simpa [hcc] using hc')
      rw [hw, Worker.releasing.injEq] at hw''
      subst hw''
      exact ⟨_, p, rest', hw', by rw [List.getElem?_set_ne (Ne.symm hcc), hchunk]⟩
  · have hcomplete := h.told hsent
    rw [hw] at hcomplete
    cases hcomplete
  · have hidle := h.parked hzero
    rw [hw] at hidle
    cases hidle

variable [DecidableEq IpAddr]

theorem Orderly.sys {a : Action ι IpAddr} {sys : Sys ι IpAddr} (h : s.Orderly cfg listens i)
    (ha : a.awaits i = false) (hs : s.sys.next cfg a = some sys) : Orderly cfg listens i { s with sys } := by
  have hsame (hsteady : (s.sys.insts i).worker.Steady) : (sys.insts i).worker = (s.sys.insts i).worker :=
    Sys.worker_of_steady hsteady ha (Sys.step_of_next hs)
  refine ⟨fun c hc => ?_, fun hsent => ?_, fun hzero => ?_, h.done, h.woken⟩
  · obtain ⟨chunks, p, rest, hw, hchunk⟩ := h.flying c hc
    have hsteady : (s.sys.insts i).worker.Steady := by
      rw [hw]
      intro hempty
      have hnil := List.all_eq_true.mp hempty _ (List.mem_of_getElem? hchunk)
      cases hnil
    exact ⟨chunks, p, rest, (hsame hsteady).trans hw, hchunk⟩
  · have hw := h.told hsent
    exact (hsame (by rw [hw]; trivial)).trans hw
  · have hw := h.parked hzero
    exact (hsame (by rw [hw]; trivial)).trans hw

theorem orderly (henabled : cfg.cleanup.enabled = true) (hs : Reach (process cfg listens i) s) :
    s.Orderly cfg listens i := by
  refine ReachWhen.invariant ?_ ?_ hs
  · rintro _ ⟨clock, now, rfl⟩
    refine ⟨fun c hc => ?_, fun hsent => ?_, fun _ => if_pos henabled, (nomatch ·), fun _ hcreated => absurd rfl hcreated⟩
    · cases hc
    · cases hsent
  · intro s e s' _ h _ hnext
    cases e with
    | sys a =>
        obtain ⟨ha, hnext⟩ := Option.ite_none_left_eq_some.mp hnext
        obtain ⟨sys, hsys, rfl⟩ := Option.map_eq_some_iff.mp hnext
        exact h.sys (by simpa using ha) hsys
    | taskRecv order => exact h.taskRecv hnext
    | taskTick order => exact h.taskTick hnext
    | begin c => exact h.begin hnext
    | finish c link => exact h.finish hnext
    | complete => exact h.complete hnext
    | poll => exact h.poll henabled hnext
    | signal sig =>
        obtain ⟨-, hnext⟩ := Option.ite_none_right_eq_some.mp hnext
        cases hnext
        exact h.signal
    | wake sig => exact h.wake hnext
    | send => exact h.send hnext
    | mainTick => exact h.mainTick hnext
    | mainRecv => exact h.mainRecv hnext

/-- The run in which a listener fails: the server is told to stop out of the blue. -/
def unasked (sig : Signal) : List (Event ι IpAddr) :=
  [.poll, .wake sig, .send, .taskRecv [], .complete, .mainRecv, .mainTick, .mainRecv]

theorem unasked_stops (henabled : cfg.cleanup.enabled = true) (hinterval : cfg.cleanup.interval ≠ 0) {sig : Signal}
    (hfails : listens sig = false) : ∃ s : Process ι IpAddr, Reach (process cfg listens i) s ∧ s.phase = .done ∧
      ¬ s.Signalled := by
  have hrun : ((process cfg listens i).exec (Process.start cfg (fun _ => 0) 0) (unasked sig)).map
      (fun s : Process ι IpAddr => (s.phase, s.received)) = some (.done, fun _ => false) := by
    simp [process, unasked, start, next, Process.poll, henabled, Process.wake, hfails, Process.send,
      Process.taskRecv, hinterval, Channel.recv, Channel.send, Channel.new, Sys.shutdown, Sys.start, Process.complete,
      Process.mainRecv, Process.mainTick, Channel.subscribe, Store.new, DashMap.isEmpty]
  obtain ⟨s, hs, hseen⟩ := Option.map_eq_some_iff.mp hrun
  simp only [Prod.mk.injEq] at hseen
  refine ⟨s, Reach.exec (.init ⟨_, _, rfl⟩) _ hs, hseen.1, ?_⟩
  rintro ⟨sig', hsig'⟩
  rw [hseen.2] at hsig'
  cases hsig'

end Process

section Results

variable [DecidableEq ι] [DecidableEq IpAddr] [ToString IpAddr] {cfg : Config} {listens : Signal → Bool} {i : ι}

/-- The server is told to stop only after a signal and after the releases if and only if the cleanup task is there to
wait for, and both listeners can be installed. With an interval of zero the task is gone and the server is never told. -/
theorem stops_after_signal_and_releases_iff :
    (∀ s : Process ι IpAddr, Reach (process cfg listens i) s → s.phase = .done →
      s.Signalled ∧ (cfg.cleanup.enabled = true → s.Released i)) ↔
    cfg.cleanup.enabled = true ∧ ((∀ sig, listens sig = true) ∨ cfg.cleanup.interval = 0) := by
  constructor
  · intro hall
    have henabled : cfg.cleanup.enabled = true := by
      by_contra hdisabled
      have hrun : (process cfg listens i).exec (Process.start cfg (fun _ => 0) 0) [.poll] =
          some { (Process.start cfg (fun _ => 0) 0 : Process ι IpAddr) with phase := .done } := by
        simp [process, Process.next, Process.poll, Process.start, hdisabled]
      obtain ⟨⟨sig, hsig⟩, -⟩ := hall _ (Reach.exec (.init ⟨_, _, rfl⟩) _ hrun) rfl
      cases hsig
    refine ⟨henabled, ?_⟩
    by_contra hbad
    rw [not_or, not_forall] at hbad
    obtain ⟨⟨sig, hfails⟩, hinterval⟩ := hbad
    have hrun : ∃ s : Process ι IpAddr, Reach (process cfg listens i) s ∧ s.phase = .done ∧ ¬ s.Signalled :=
      Process.unasked_stops henabled hinterval (by simpa using hfails)
    obtain ⟨s, hs, hdone, hnone⟩ := hrun
    exact hnone (hall s hs hdone).1
  · rintro ⟨henabled, hcase⟩ s hs hdone
    have h := Process.orderly henabled hs
    have hreleased := h.released hdone
    refine ⟨?_, fun _ => hreleased⟩
    rcases hcase with hlistens | hzero
    · exact h.woken hlistens (by simp [hdone]) (by simp [hdone])
    · have hidle := h.parked hzero
      rw [hreleased.1] at hidle
      cases hidle

/-- Without the cleanup task the server is told to stop as soon as it is started. -/
theorem default_stops_at_once : ∃ s : Process Unit String,
    (process .default (fun _ => true) ()).exec (Process.start .default (fun _ => 0) 0) [.poll] = some s ∧
    Reach (process .default (fun _ => true) ()) s ∧ s.phase = .done ∧ ¬ s.Signalled := by
  refine ⟨_, rfl, Reach.exec (.init ⟨fun _ => 0, 0, rfl⟩) [.poll] rfl, rfl, ?_⟩
  rintro ⟨sig, hsig⟩
  cases hsig

end Results

end ThatLimit
