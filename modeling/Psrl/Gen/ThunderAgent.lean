import Mathlib.Data.Rat.Floor
import Psrl.Lib.Greedy
import Psrl.Lib.Multimap
import Psrl.Gen.SessionRouter

/-!
# Psrl.Gen.ThunderAgent

**Hanging and continuing sessions** (`rollout_coordination/session/thunder_agent.py`).

`decide` looks at the KV capacity of each instance. An instance whose running sessions need more
than it has hangs some of them, in the order of `_hang_order`. Then sessions that were hung
before are continued as far as the remaining capacities allow: on their own instance, or, in the
global scope, wherever there is room.
-/

namespace Psrl

open Py

/-- The status of a session: any but `STATUS_ENV` counts as generating. -/
inductive SessionStatus
  | generate
  | env
  deriving DecidableEq

structure InstanceCapacity (ι : Type) where
  instanceId : ι
  totalKvTokens : Int
  usedTokens : Int
  deriving DecidableEq

structure SessionInfo (ι κ : Type) where
  sessionId : κ
  instanceId : Option ι
  status : SessionStatus
  hangState : HangState
  totalTokens : Int
  deriving DecidableEq

structure ThunderAgentScheduler where
  envTokenWeight : Rat
  bufferPerSession : Int
  globalScope : Bool

/-- `int(x)`. -/
def truncate (x : Rat) : Int := if 0 ≤ x then x.floor else x.ceil

variable {ι κ : Type} [DecidableEq ι] [DecidableEq κ]

/-- `sorted(sessions, key=lambda s: s.total_tokens)`. -/
def sortedByTokens (sessions : List (SessionInfo ι κ)) : List (SessionInfo ι κ) :=
  sessions.insertionSort (·.totalTokens ≤ ·.totalTokens)

/-- Sessions by their current instance. -/
structure SessionGroups (ι κ : Type) where
  running : Dict ι (List (SessionInfo ι κ))
  hung : Dict ι (List (SessionInfo ι κ))

/-- The body of the loop of `decide` over the sessions. -/
def SessionGroups.add (instances : List (InstanceCapacity ι)) (groups : SessionGroups ι κ)
    (sess : SessionInfo ι κ) : SessionGroups ι κ :=
  match sess.instanceId with
  | none => groups
  | some instanceId =>
      if instanceId ∈ instances.map (·.instanceId) then
        if sess.hangState = .hung then { groups with hung := groups.hung.append instanceId sess }
        else { groups with running := groups.running.append instanceId sess }
      else groups

def groupSessions (instances : List (InstanceCapacity ι)) (sessions : List (SessionInfo ι κ)) :
    SessionGroups ι κ :=
  sessions.foldl (SessionGroups.add instances) ⟨.empty, .empty⟩

namespace ThunderAgentScheduler

variable (sched : ThunderAgentScheduler)

/-- `sess.total_tokens + self.buffer_per_session`. -/
def need (sess : SessionInfo ι κ) : Int := sess.totalTokens + sched.bufferPerSession

/-! ### Hanging -/

/-- `_remaining_capacity`. -/
def remainingCapacity (inst : InstanceCapacity ι) (running : List (SessionInfo ι κ))
    (hungNow : List κ) : Int :=
  let generateTokensFull := ((running.filter (·.status ≠ .env)).map (·.totalTokens)).sum
  let shared := max 0 (generateTokensFull - inst.usedTokens)
  let kept := running.filter (·.sessionId ∉ hungNow)
  let generateTokens := ((kept.filter (·.status ≠ .env)).map (·.totalTokens)).sum
  let envTokens := ((kept.filter (·.status = .env)).map (·.totalTokens)).sum
  let active := truncate (generateTokens + sched.envTokenWeight * envTokens)
  let buffer := kept.length * sched.bufferPerSession
  let used := active - shared + buffer
  inst.totalKvTokens - used

/-- `_hang_order`. -/
def hangOrder (running : List (SessionInfo ι κ)) : List (SessionInfo ι κ) :=
  sortedByTokens (running.filter (·.status = .env)) ++
    sortedByTokens (running.filter (·.status ≠ .env))

/-- The loop over the sessions in the order of `_hang_order`. -/
def hangLoop (inst : InstanceCapacity ι) (running : List (SessionInfo ι κ)) :
    List (SessionInfo ι κ) → List κ → Int → List κ × Int
  | [], hungNow, remaining => (hungNow, remaining)
  | sess :: order, hungNow, remaining =>
      if remaining ≥ 0 then (hungNow, remaining)
      else
        let hungNow := hungNow ++ [sess.sessionId]
        hangLoop inst running order hungNow (sched.remainingCapacity inst running hungNow)

/-- What is hung on an instance, and its remaining capacity then. -/
def hangOn (inst : InstanceCapacity ι) (running : List (SessionInfo ι κ)) : List κ × Int :=
  let remaining := sched.remainingCapacity inst running []
  if remaining < 0 then sched.hangLoop inst running (hangOrder running) [] remaining
  else ([], remaining)

/-- `to_hang` and `remaining_by_instance`. -/
def hangPhase (instances : List (InstanceCapacity ι)) (running : Dict ι (List (SessionInfo ι κ))) :
    List κ × Dict ι Int :=
  instances.foldl (fun (toHang, remainingByInstance) inst =>
    let (hungNow, remaining) := sched.hangOn inst ((running.get? inst.instanceId).getD [])
    (toHang ++ hungNow, remainingByInstance.set inst.instanceId remaining)) ([], .empty)

/-! ### Continuing -/

/-- `_continue_pinned`: the sessions, with the instances they continue on. -/
def continuePinned (hungByInstance : Dict ι (List (SessionInfo ι κ)))
    (remainingByInstance : Dict ι Int) : List (SessionInfo ι κ × ι) :=
  hungByInstance.items.flatMap fun (instanceId, hung) =>
    let remaining := (remainingByInstance.get? instanceId).getD 0
    if remaining ≤ sched.bufferPerSession then []
    else (Greedy.fill sched.need remaining (sortedByTokens hung)).map (·, instanceId)

/-- The sessions whose cumulative need fits the total capacity. -/
def selectResumable (totalCapacity : Int) : Int → List (SessionInfo ι κ) → List (SessionInfo ι κ)
  | _, [] => []
  | cumulative, sess :: candidates =>
      if cumulative + sched.need sess ≤ totalCapacity then
        sess :: selectResumable totalCapacity (cumulative + sched.need sess) candidates
      else selectResumable totalCapacity cumulative candidates

/-- `caps.sort(key=lambda row: -row[1])`. -/
def sortCaps (caps : List (ι × Int)) : List (ι × Int) := caps.insertionSort fun a b => -a.2 ≤ -b.2

/-- The rows after the first one, with capacity `cap` left, has got a session. -/
def capsAfter (instanceId : ι) (cap : Int) (caps : List (ι × Int)) : List (ι × Int) :=
  if cap > sched.bufferPerSession then sortCaps ((instanceId, cap) :: caps) else caps

/-- The loop that places sessions, and stops when not even the smallest one fits. -/
def place (minNeed : Int) : List (SessionInfo ι κ) → List (ι × Int) → List (SessionInfo ι κ × ι)
  | [], _ => []
  | _, [] => []
  | sess :: resumable, (instanceId, maxCap) :: caps =>
      if minNeed > maxCap then []
      else if sched.need sess > maxCap then place minNeed resumable ((instanceId, maxCap) :: caps)
      else (sess, instanceId) ::
        place minNeed resumable (sched.capsAfter instanceId (maxCap - sched.need sess) caps)

/-- The instances with room. -/
def roomyRows (remainingByInstance : Dict ι Int) : List (ι × Int) :=
  remainingByInstance.items.filter (·.2 > sched.bufferPerSession)

/-- The sessions to place, the largest one first. -/
def resumable (hungByInstance : Dict ι (List (SessionInfo ι κ)))
    (remainingByInstance : Dict ι Int) :
    List (SessionInfo ι κ) :=
  let totalCapacity := ((sched.roomyRows remainingByInstance).map Prod.snd).sum
  let allHung := hungByInstance.items.flatMap Prod.snd
  (sched.selectResumable totalCapacity 0 (sortedByTokens allHung)).insertionSort
    fun a b => -a.totalTokens ≤ -b.totalTokens

/-- `_continue_global_bfd`, up to the loop that places sessions. -/
def bfd (placing : Int → List (SessionInfo ι κ) → List (ι × Int) → List (SessionInfo ι κ × ι))
    (hungByInstance : Dict ι (List (SessionInfo ι κ))) (remainingByInstance : Dict ι Int) :
    List (SessionInfo ι κ × ι) :=
  let caps := sched.roomyRows remainingByInstance
  if caps = [] ∨ (caps.map Prod.snd).sum ≤ 0 then []
  else
    match (sched.resumable hungByInstance remainingByInstance).getLast? with
    | none => []
    | some smallest =>
        placing (sched.need smallest) (sched.resumable hungByInstance remainingByInstance)
          (sortCaps caps)

/-- `_continue_global_bfd`. -/
def continueGlobalBfd (hungByInstance : Dict ι (List (SessionInfo ι κ)))
    (remainingByInstance : Dict ι Int) : List (SessionInfo ι κ × ι) :=
  sched.bfd sched.place hungByInstance remainingByInstance

/-- `decide`. -/
def decide (instances : List (InstanceCapacity ι)) (sessions : List (SessionInfo ι κ)) :
    List κ × List (κ × ι) :=
  let groups := groupSessions instances sessions
  let (toHang, remainingByInstance) := sched.hangPhase instances groups.running
  let toContinue :=
    if sched.globalScope then sched.continueGlobalBfd groups.hung remainingByInstance
    else sched.continuePinned groups.hung remainingByInstance
  (toHang, toContinue.map fun (sess, instanceId) => (sess.sessionId, instanceId))

end ThunderAgentScheduler

/-! ### Groups -/

/-- The sessions that run on an instance. -/
def runningOn (sessions : List (SessionInfo ι κ)) (instanceId : ι) : List (SessionInfo ι κ) :=
  sessions.filter fun sess => sess.instanceId = some instanceId ∧ sess.hangState ≠ .hung

/-- The sessions that are hung on an instance. -/
def hungOn (sessions : List (SessionInfo ι κ)) (instanceId : ι) : List (SessionInfo ι κ) :=
  sessions.filter fun sess => sess.instanceId = some instanceId ∧ sess.hangState = .hung

section Groups

variable {instances : List (InstanceCapacity ι)} {sessions : List (SessionInfo ι κ)}

omit [DecidableEq κ] in
theorem mem_hungOn {sess : SessionInfo ι κ} {i : ι} : sess ∈ hungOn sessions i ↔
    sess ∈ sessions ∧ sess.instanceId = some i ∧ sess.hangState = .hung := by
  simp [hungOn]

omit [DecidableEq κ] in
theorem mem_runningOn {sess : SessionInfo ι κ} {i : ι} : sess ∈ runningOn sessions i ↔
    sess ∈ sessions ∧ sess.instanceId = some i ∧ sess.hangState ≠ .hung := by
  simp [runningOn]

omit [DecidableEq κ] in
/-- One session goes to the group of its instance. -/
theorem SessionGroups.add_eq (groups : SessionGroups ι κ) (sess : SessionInfo ι κ) (i : ι) :
    ((groups.add instances sess).running.get? i).getD [] = (groups.running.get? i).getD [] ++
      (if i ∈ instances.map (·.instanceId) then runningOn [sess] i else []) ∧
    ((groups.add instances sess).hung.get? i).getD [] = (groups.hung.get? i).getD [] ++
      (if i ∈ instances.map (·.instanceId) then hungOn [sess] i else []) := by
  unfold SessionGroups.add
  cases hid : sess.instanceId with
  | none => simp [runningOn, hungOn, hid]
  | some j =>
      dsimp only
      split
      · rename_i hknown
        by_cases hij : i = j
        · subst hij
          split
          · rename_i hhung
            simp only [Dict.getD_append]
            simp [runningOn, hungOn, hid, hhung]
          · rename_i hrunning
            simp only [Dict.getD_append]
            simp [runningOn, hungOn, hid, hrunning]
        · have hne : ¬ j = i := fun h => hij h.symm
          split <;> simp [Dict.getD_append, hij, runningOn, hungOn, hid, hne]
      · rename_i hunknown
        by_cases hij : i = j
        · subst hij
          simp only [if_neg hunknown, List.append_nil, and_self]
        · have hne : ¬ j = i := fun h => hij h.symm
          simp [runningOn, hungOn, hid, hne]

omit [DecidableEq κ] in
/-- The groups of an instance are its sessions, if it is known. -/
theorem groupSessions_eq (instances : List (InstanceCapacity ι)) (sessions : List (SessionInfo ι κ))
    (i : ι) :
    ((groupSessions instances sessions).running.get? i).getD [] =
      (if i ∈ instances.map (·.instanceId) then runningOn sessions i else []) ∧
    ((groupSessions instances sessions).hung.get? i).getD [] =
      (if i ∈ instances.map (·.instanceId) then hungOn sessions i else []) := by
  have hloop : ∀ (sessions : List (SessionInfo ι κ)) (groups : SessionGroups ι κ),
      ((sessions.foldl (SessionGroups.add instances) groups).running.get? i).getD [] =
        (groups.running.get? i).getD [] ++
          (if i ∈ instances.map (·.instanceId) then runningOn sessions i else []) ∧
      ((sessions.foldl (SessionGroups.add instances) groups).hung.get? i).getD [] =
        (groups.hung.get? i).getD [] ++
          (if i ∈ instances.map (·.instanceId) then hungOn sessions i else []) := by
    intro sessions
    induction sessions with
    | nil =>
        intro groups
        simp [runningOn, hungOn]
    | cons sess sessions ih =>
        intro groups
        have hrunning : runningOn (sess :: sessions) i =
            runningOn [sess] i ++ runningOn sessions i :=
          List.filter_append [sess] sessions
        have hhung : hungOn (sess :: sessions) i = hungOn [sess] i ++ hungOn sessions i :=
          List.filter_append [sess] sessions
        rw [List.foldl_cons, (ih _).1, (ih _).2, (groups.add_eq sess i).1, (groups.add_eq sess i).2,
          hrunning, hhung]
        split <;> simp
  have h := hloop sessions ⟨.empty, .empty⟩
  exact ⟨h.1.trans (List.nil_append _), h.2.trans (List.nil_append _)⟩

end Groups

namespace ThunderAgentScheduler

variable {sched : ThunderAgentScheduler} {inst : InstanceCapacity ι}
  {running : List (SessionInfo ι κ)}

/-! ### The hang phase -/

omit [DecidableEq ι] [DecidableEq κ] in
theorem mem_sortedByTokens {sess : SessionInfo ι κ} :
    sess ∈ sortedByTokens running ↔ sess ∈ running := List.mem_insertionSort _

omit [DecidableEq ι] [DecidableEq κ] in
theorem hangOrder_perm : (hangOrder running).Perm running := by
  refine ((List.perm_insertionSort _ _).append (List.perm_insertionSort _ _)).trans ?_
  have h := List.filter_append_perm
    (fun sess : SessionInfo ι κ => Decidable.decide (sess.status = .env)) running
  simpa using h

omit [DecidableEq ι] in
/-- With all its sessions hung an instance is within its capacity. -/
theorem remainingCapacity_nonneg (htotal : 0 ≤ inst.totalKvTokens) :
    0 ≤ sched.remainingCapacity inst running ((hangOrder running).map (·.sessionId)) := by
  have hkept : running.filter
      (fun sess => sess.sessionId ∉ (hangOrder running).map (·.sessionId)) = [] := by
    refine List.filter_eq_nil_iff.mpr fun sess hsess => ?_
    have hmem := List.mem_map_of_mem (f := (·.sessionId)) (hangOrder_perm.mem_iff.mpr hsess)
    simpa using hmem
  unfold remainingCapacity
  rw [hkept]
  have hzero : truncate (((0 : Int) : Rat) + sched.envTokenWeight * ((0 : Int) : Rat)) = 0 := by
    rw [Int.cast_zero, mul_zero, add_zero]
    rfl
  simp only [List.filter_nil, List.map_nil, List.sum_nil, hzero, List.length_nil]
  omega

omit [DecidableEq ι] in
/-- The loop stops after the shortest prefix of what it goes through that is enough. -/
theorem hangLoop_eq {order : List (SessionInfo ι κ)} {hungNow : List κ}
    (henough : 0 ≤ sched.remainingCapacity inst running (hungNow ++ order.map (·.sessionId))) :
    ∃ hung, hung <+: order ∧
      sched.hangLoop inst running order hungNow (sched.remainingCapacity inst running hungNow) =
        (hungNow ++ hung.map (·.sessionId),
          sched.remainingCapacity inst running (hungNow ++ hung.map (·.sessionId))) ∧
      0 ≤ sched.remainingCapacity inst running (hungNow ++ hung.map (·.sessionId)) ∧
      ∀ l, l <+: order → l.length < hung.length →
        sched.remainingCapacity inst running (hungNow ++ l.map (·.sessionId)) < 0 := by
  induction order generalizing hungNow with
  | nil =>
      refine ⟨[], List.nil_prefix, ?_, henough, fun l _ hlt => absurd hlt (Nat.not_lt_zero _)⟩
      rw [List.map_nil, List.append_nil]
      rfl
  | cons sess order ih =>
      unfold hangLoop
      split
      · rename_i hdone
        refine ⟨[], List.nil_prefix, ?_, ?_, fun l _ hlt => absurd hlt (Nat.not_lt_zero _)⟩
        · rw [List.map_nil, List.append_nil]
        · rw [List.map_nil, List.append_nil]
          exact hdone
      · rename_i hover
        have happend : ∀ l : List (SessionInfo ι κ),
            hungNow ++ (sess :: l).map (·.sessionId) =
              hungNow ++ [sess.sessionId] ++ l.map (·.sessionId) := by
          intro l
          rw [List.map_cons, List.append_assoc, List.singleton_append]
        rw [happend] at henough
        obtain ⟨hung, hinit, heq, hnonneg, hshorter⟩ := ih henough
        refine ⟨sess :: hung, List.cons_prefix_cons.mpr ⟨rfl, hinit⟩, ?_, ?_, fun l hl hlt => ?_⟩
        · rw [happend]
          exact heq
        · rw [happend]
          exact hnonneg
        · cases l with
          | nil =>
              rw [List.map_nil, List.append_nil]
              exact not_le.mp hover
          | cons first l =>
              obtain ⟨rfl, hrest⟩ := List.cons_prefix_cons.mp hl
              rw [happend]
              exact hshorter l hrest (Nat.lt_of_succ_lt_succ hlt)

omit [DecidableEq ι] in
/-- The loop starts with nothing hung. -/
theorem hangOn_eq (sched : ThunderAgentScheduler) (running : List (SessionInfo ι κ))
    (htotal : 0 ≤ inst.totalKvTokens) :
    ∃ hung, hung <+: hangOrder running ∧
      sched.hangOn inst running = (hung.map (·.sessionId),
        sched.remainingCapacity inst running (hung.map (·.sessionId))) ∧
      0 ≤ sched.remainingCapacity inst running (hung.map (·.sessionId)) ∧
      ∀ l, l <+: hangOrder running → l.length < hung.length →
        sched.remainingCapacity inst running (l.map (·.sessionId)) < 0 := by
  unfold hangOn
  dsimp only
  split
  · exact hangLoop_eq (remainingCapacity_nonneg htotal)
  · rename_i henough
    exact ⟨[], List.nil_prefix, rfl, not_lt.mp henough, fun l _ hlt =>
      absurd hlt (Nat.not_lt_zero _)⟩

/-- The hang phase goes through the instances one by one. -/
theorem hangPhase_eq (sched : ThunderAgentScheduler) {instances : List (InstanceCapacity ι)}
    (groups : Dict ι (List (SessionInfo ι κ))) (hids : (instances.map (·.instanceId)).Nodup) :
    (sched.hangPhase instances groups).1 =
      (instances.flatMap fun inst =>
        (sched.hangOn inst ((groups.get? inst.instanceId).getD [])).1) ∧
    (∀ inst ∈ instances, (sched.hangPhase instances groups).2.get? inst.instanceId =
      some (sched.hangOn inst ((groups.get? inst.instanceId).getD [])).2) ∧
    ∀ i ∉ instances.map (·.instanceId), (sched.hangPhase instances groups).2.get? i = none := by
  suffices hloop : ∀ (acc : List κ × Dict ι Int),
      let result := instances.foldl (fun (toHang, remainingByInstance) inst =>
        let (hungNow, remaining) := sched.hangOn inst ((groups.get? inst.instanceId).getD [])
        (toHang ++ hungNow, remainingByInstance.set inst.instanceId remaining)) acc
      result.1 = acc.1 ++ (instances.flatMap fun inst =>
        (sched.hangOn inst ((groups.get? inst.instanceId).getD [])).1) ∧
      (∀ inst ∈ instances, result.2.get? inst.instanceId =
        some (sched.hangOn inst ((groups.get? inst.instanceId).getD [])).2) ∧
      ∀ i ∉ instances.map (·.instanceId), result.2.get? i = acc.2.get? i from hloop ([], .empty)
  induction instances with
  | nil =>
      intro acc
      exact ⟨(List.append_nil _).symm, nofun, fun _ _ => rfl⟩
  | cons first instances ih =>
      intro acc
      obtain ⟨hfirst, hids⟩ := List.nodup_cons.mp hids
      obtain ⟨hhang, hknown, hunknown⟩ := ih hids _
      refine ⟨hhang.trans ?_, fun inst hinst => ?_, fun i hi => (hunknown i ?_).trans ?_⟩
      · rw [List.flatMap_cons, List.append_assoc]
      · rcases List.mem_cons.mp hinst with rfl | hinst
        · exact (hunknown _ hfirst).trans (Dict.get?_set_self ..)
        · exact hknown inst hinst
      · exact fun h => hi (List.mem_cons_of_mem _ h)
      · exact Dict.get?_set_of_ne _ _ fun heq => hi (heq ▸ List.mem_cons_self)

end ThunderAgentScheduler

end Psrl
