import ForkAgent.Effects.Schedule
import ForkAgent.Launch.System

/-!
# A registry that answers

The table answers by itself; the clock and the fresh id are fixed from outside. A schedule of
callers is then a computation, and what it computes is a run of the launch system.
-/

namespace ForkAgent.Launch

open Effects Storage

/-- The time that the clock shows and the next fresh id. -/
structure Surroundings where
  now : Nat := 0
  launchId : String := "launch"

def respondLaunch (o : Surroundings) : (c : LaunchCall) → LaunchStore → Except Exn c.Value × LaunchStore
  | .insert row, s =>
    match s.insert row with
    | .ok (inserted, s') => (.ok inserted, s')
    | .error e => (.error e, s)
  | .getByLaunchId launchId, s =>
    ((s.agentLaunchRegistry.find? fun r => r.launchId == launchId).mapM (construct _), s)
  | .findActiveByCanonicalKey canonicalKey, s =>
    ((orderDesc (·.createdAt) (s.blockingRows canonicalKey)).head?.mapM (construct _), s)
  | .casUpdate launchId expected new columns, s =>
    (.ok (s.agentLaunchRegistry.any (LaunchStore.guarded launchId expected)),
      s.casUpdate launchId expected new columns)
  | .listByStatus status, s =>
    (.ok (LaunchStore.wellFormed (orderDesc (·.createdAt)
      (s.agentLaunchRegistry.filter fun r => r.status == status))), s)
  | .listExpiredLeases now, s =>
    (.ok (LaunchStore.wellFormed (s.agentLaunchRegistry.filter fun r =>
      (r.status == .reserved || r.status == .spawning) && r.leaseExpiresAt.any (· ≤ now))), s)
  | .nowMs, s => (.ok (o.now : Int), s)
  | .uuid4Hex, s => (.ok o.launchId, s)
  | .aliveTmuxPanes, s => (.ok none, s)

theorem respondLaunch_serve (o : Surroundings) (c : LaunchCall) (s : LaunchStore) :
    LaunchStore.serve ⟨c, (respondLaunch o c s).1⟩ s (respondLaunch o c s).2 := by
  cases c with
  | insert row =>
    simp only [LaunchStore.serve, respondLaunch]
    cases s.insert row with
    | ok answer => exact ⟨rfl, rfl⟩
    | error e => exact ⟨rfl, rfl⟩
  | getByLaunchId launchId => exact ⟨rfl, rfl⟩
  | findActiveByCanonicalKey canonicalKey =>
    exact ⟨rfl, _, head?_latest (orderDesc_ordered _ _), rfl⟩
  | casUpdate launchId expected new columns => exact ⟨rfl, rfl⟩
  | listByStatus status => exact ⟨rfl, _, orderDesc_ordered _ _, rfl⟩
  | listExpiredLeases now => exact ⟨rfl, _, rfl, .refl _⟩
  | nowMs => exact ⟨rfl, _, rfl⟩
  | uuid4Hex => exact ⟨rfl, _, rfl⟩
  | aliveTmuxPanes => exact rfl

/-- The trace and the end of a schedule that starts with an empty registry. -/
def playLaunches (moves : List (launchSystem.Move Surroundings)) :
    Option (List launchSystem.Event × launchSystem.Config) :=
  launchSystem.play (fun o c s => some (respondLaunch o c s)) moves ⟨{}, fun _ => none⟩

theorem run_of_playLaunches {moves : List (launchSystem.Move Surroundings)}
    {tr : List launchSystem.Event} {cfg : launchSystem.Config}
    (h : playLaunches moves = some (tr, cfg)) : launchSystem.Run tr cfg := by
  have hinitial : launchSystem.Run [] ⟨{}, fun _ => none⟩ := .initial rfl
  refine hinitial.play (fun o c s r s' hanswer => ?_) h
  have hserve := respondLaunch_serve o c s
  rw [Option.some.inj hanswer] at hserve
  exact .inl hserve

/-- The next `n` calls of a caller, made at a time with a fresh id at hand. -/
def launchCalls (i n now : Nat) (launchId : String) : List (launchSystem.Move Surroundings) :=
  List.replicate n (.call i ⟨now, launchId⟩)

end ForkAgent.Launch
