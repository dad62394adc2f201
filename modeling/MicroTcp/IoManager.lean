-- The execution manager of `io_manager.cpp`. `start` marks the manager active
-- only after the last worker thread is made, so a thread that fails to start
-- leaves it inactive with a joinable thread, which the destructor terminates on.
import MicroTcp.Session

namespace micro_tcp.io_manager

/-- `micro_tcp::io_manager`: `active_`, whether `io_work_informer_` holds an
`io_service::work`, and `io_thread_pool_`, each thread joinable or not. -/
structure IoManager where
  active : Bool
  work : Bool
  pool : List Bool
deriving DecidableEq, Repr

/-- How a call on the manager ends. -/
inductive Outcome
  | returned (m : IoManager)
  /-- An exception left the call, with the manager as it was when it was thrown. -/
  | threw (m : IoManager)
  /-- A joinable `std::thread` was destroyed: `std::terminate`. -/
  | terminated
deriving DecidableEq, Repr

/-- A call on the manager: `start(num_threads)`, where making thread `k` throws
`std::system_error` when `throwsAt = some k`, or `stop()`. -/
inductive Call
  | start (numThreads : Nat) (throwsAt : Option Nat)
  | stop
deriving DecidableEq, Repr

namespace IoManager

/-- `io_manager::io_manager()`. -/
def init : IoManager := ⟨false, false, []⟩

/-- `io_manager::is_active()`. -/
def isActive (m : IoManager) : Bool := m.active

/-- `io_thread_pool_.clear()`: destroying a joinable thread terminates the process. -/
def clearPool (m : IoManager) : Outcome :=
  if m.pool.any id then .terminated else .returned { m with pool := [] }

/-- `io_manager::start(num_threads)`: the threads made before one that throws stay in the
pool, running. -/
def start (numThreads : Nat) (throwsAt : Option Nat) (m : IoManager) : Outcome :=
  if m.isActive then .returned m
  else
    match clearPool m with
    | .returned m =>
      match throwsAt with
      | some k =>
        if k < numThreads then .threw { m with work := true, pool := List.replicate k true }
        else .returned { m with work := true, pool := List.replicate numThreads true, active := true }
      | none => .returned { m with work := true, pool := List.replicate numThreads true, active := true }
    | o => o

/-- `io_manager::stop()`: drop the work token, stop the service, join every thread. -/
def stop (m : IoManager) : IoManager :=
  if m.isActive then { m with work := false, pool := m.pool.map fun _ => false, active := false }
  else m

/-- `io_manager::~io_manager()`: `stop()`, then the pool is destroyed. -/
def destroy (m : IoManager) : Outcome := clearPool m.stop

/-- The manager after one call. -/
def call : Call → IoManager → Outcome
  | .start n t, m => m.start n t
  | .stop, m => .returned m.stop

/-- The calls one after the other, the caller going on after an exception. -/
def calls : List Call → IoManager → Outcome
  | [], m => .returned m
  | c :: cs, m =>
    match m.call c with
    | .returned m | .threw m => calls cs m
    | .terminated => .terminated

/-- A manager's life: constructed, the calls, then destroyed. -/
def lifetime (cs : List Call) : Outcome :=
  match init.calls cs with
  | .returned m | .threw m => m.destroy
  | .terminated => .terminated

end IoManager

/-- When the second of two worker threads cannot be made, `start` throws with the manager
inactive, the work token installed and one joinable thread; a later `start` and the
destructor both destroy that thread. -/
theorem start_throws_midway :
    IoManager.init.start 2 (some 1) = .threw ⟨false, true, [true]⟩ ∧
    IoManager.lifetime [.start 2 (some 1)] = .terminated ∧
    IoManager.lifetime [.start 2 (some 1), .start 1 none] = .terminated := by
  decide

/-! ## Without a thread failure -/

/-- A call in which making a worker thread does not fail. -/
def Call.NoFailure : Call → Prop
  | .start _ t => t = none
  | .stop => True

/-- What `io_manager` keeps between calls: the work token is installed exactly while active,
the threads run while active, and none is joinable while inactive. -/
structure Good (m : IoManager) : Prop where
  work_eq : m.work = m.active
  running : m.active = true → ∀ t ∈ m.pool, t = true
  joined : m.active = false → ∀ t ∈ m.pool, t = false

namespace IoManager

variable {m : IoManager}

theorem clearPool_of_joined (h : ∀ t ∈ m.pool, t = false) :
    m.clearPool = .returned { m with pool := [] } := by
  have : m.pool.any id = false := by simpa using h
  simp [clearPool, this]

theorem good_init : Good init := ⟨rfl, nofun, nofun⟩

theorem good_stop (hg : Good m) : Good m.stop := by
  unfold stop isActive
  split
  · exact ⟨rfl, nofun, fun _ _ ht => by obtain ⟨_, _, rfl⟩ := List.mem_map.1 ht; rfl⟩
  · exact hg

theorem call_good (hg : Good m) {c : Call} (hc : c.NoFailure) :
    ∃ m', m.call c = .returned m' ∧ Good m' := by
  cases c with
  | stop => exact ⟨_, rfl, good_stop hg⟩
  | start n t =>
    cases hc
    by_cases ha : m.active
    · exact ⟨m, by simp [call, start, isActive, ha], hg⟩
    · simp only [Bool.not_eq_true] at ha
      refine ⟨⟨true, true, List.replicate n true⟩,
        by simp [call, start, isActive, ha, clearPool_of_joined (hg.joined ha)], ?_⟩
      exact ⟨rfl, fun _ _ ht => (List.mem_replicate.1 ht).2, nofun⟩

theorem destroy_good (hg : Good m) : m.destroy = .returned { m.stop with pool := [] } :=
  clearPool_of_joined ((good_stop hg).joined (by unfold stop isActive; split <;> simp_all))

theorem calls_good (hg : Good m) {cs : List Call} (hcs : ∀ c ∈ cs, c.NoFailure) :
    ∃ m', m.calls cs = .returned m' ∧ Good m' := by
  induction cs generalizing m with
  | nil => exact ⟨m, rfl, hg⟩
  | cons c cs ih =>
    obtain ⟨m₁, h₁, hg₁⟩ := call_good hg (hcs c (.head _))
    simpa [calls, h₁] using ih hg₁ fun c hc => hcs c (.tail _ hc)

end IoManager

/-- When no worker thread fails to start, every sequence of `start(n)` and `stop()` calls keeps
the work token installed and the pool's threads running exactly while `is_active()`, leaves no
joinable thread while inactive, and the destructor returns without terminating. -/
theorem lifecycle_without_thread_failure (cs : List Call) (hcs : ∀ c ∈ cs, c.NoFailure) :
    (∃ m, IoManager.init.calls cs = .returned m ∧ Good m) ∧
    ∃ m, IoManager.lifetime cs = .returned m := by
  obtain ⟨m, hm, hg⟩ := IoManager.calls_good IoManager.good_init hcs
  refine ⟨⟨m, hm, hg⟩, { m.stop with pool := [] }, ?_⟩
  rw [IoManager.lifetime, hm]
  exact IoManager.destroy_good hg

theorem lifecycle_without_thread_failure_cycle :
    (∀ c ∈ [Call.start 3 none, .stop, .start 2 none], c.NoFailure) ∧
    ∃ m, IoManager.lifetime [.start 3 none, .stop, .start 2 none] = .returned m :=
  have h : ∀ c ∈ [Call.start 3 none, .stop, .start 2 none], c.NoFailure := by
    simp [Call.NoFailure]
  ⟨h, (lifecycle_without_thread_failure _ h).2⟩

end micro_tcp.io_manager
