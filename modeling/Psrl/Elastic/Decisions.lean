import Mathlib.Algebra.Ring.Nat
import Psrl.Elastic.Exclusive
import Psrl.Lib.Live

/-!
# Psrl.Elastic.Decisions

**Decisions of the scaling policy** and what becomes of their actions (the monitor loop, the two
handler loops and `_mark_decision_action_finished` in `elastic_executor.py`).

The monitor loop puts the actions of a decision into the queues of the two handlers and counts them;
a handler takes one task at a time and marks its action finished in a `finally`, whatever happened.
That keeps the flag and the counts right (`Books`), and every action is marked sooner or later as
long as the handlers keep running (`decisions_finish`). But nothing catches what a command raises:
it ends the handler's loop, and the tasks that come after it stay in the queue.

A handler's step is one of its loop or of one of its commands. Of a fair run only this is asked: a
handler that can go on goes on, so commands are answered, with a result, without one, or by raising.
-/

namespace Psrl

open Py

/-- The two handler loops. -/
inductive Side
  | up
  | down
  deriving DecidableEq

namespace ElasticLoops

variable {Role : Type} [DecidableEq Role] {Usage : Type} [LinearOrder Usage]
  {s s' : ElasticLoops Role} {jobs : List (ScaleJob Role)} {a : Action Role Usage} {side : Side}

/-! ### One task -/

def sideOf : Action Role Usage → Side
  | .takeUp _ _ | .startSleepUp _ _ | .replySleepUp _ _ | .sleptUp => .up
  | .startWake _ | .replyWake _ _ | .wokenUp | .interrupted => .up
  | .takeDown _ _ | .startSleepDown _ _ | .replySleepDown _ _ | .sleptDown => .down

def isTake : Action Role Usage → Bool
  | .takeUp _ _ | .takeDown _ _ => true
  | _ => false

/-- The coroutine of the handler goes on, not only one of its commands. -/
def isLoopStep : Action Role Usage → Bool
  | .sleptUp | .wokenUp | .interrupted | .sleptDown => true
  | _ => false

def idle (s : ElasticLoops Role) : Side → Bool
  | .up => match s.up with | .idle => true | _ => false
  | .down => match s.down with | .idle => true | _ => false

/-- A handler takes a task. -/
def take (s : ElasticLoops Role) (side : Side) (usage : InstanceIdentifier Role → Usage)
    (task : ScaleTask Role) : ElasticLoops Role :=
  match side with
  | .up => s.takeUp usage task
  | .down => s.takeDown usage task

/-- What is left to do for a call. -/
def ScaleStage.left : ScaleStage → Nat
  | .scheduled => 2
  | .sent => 1
  | .finished => 0

/-- What is left to do for the calls of a `gather`. -/
def work (jobs : List (ScaleJob Role)) : Nat := (jobs.map fun job => ScaleStage.left job.stage).sum

/-- How far a handler is from the end of its task; a task is still to be taken by an idle one. -/
def rank (s : ElasticLoops Role) : Side → ℕ ×ₗ ℕ
  | .up =>
      match s.up with
      | .idle => toLex (4, 0)
      | .sleeping _ jobs => toLex (3, work jobs)
      | .waking _ jobs => toLex (2, work jobs)
      | .interrupting => toLex (1, 0)
  | .down =>
      match s.down with
      | .idle => toLex (2, 0)
      | .sleeping jobs => toLex (1, work jobs)

/-- The handler is where it was. -/
def SamePhase (s s' : ElasticLoops Role) : Side → Prop
  | .up => s'.up = s.up
  | .down => s'.down = s.down

omit [DecidableEq Role] in
theorem SamePhase.idle (h : SamePhase s s' side) : s'.idle side = s.idle side := by
  cases side with
  | up =>
      have h : s'.up = s.up := h
      rw [ElasticLoops.idle, h, ElasticLoops.idle]
  | down =>
      have h : s'.down = s.down := h
      rw [ElasticLoops.idle, h, ElasticLoops.idle]

omit [DecidableEq Role] in
theorem SamePhase.rank (h : SamePhase s s' side) : s'.rank side = s.rank side := by
  cases side with
  | up =>
      have h : s'.up = s.up := h
      rw [ElasticLoops.rank, h, ElasticLoops.rank]
  | down =>
      have h : s'.down = s.down := h
      rw [ElasticLoops.rank, h, ElasticLoops.rank]

omit [DecidableEq Role] in
theorem work_modify (stage : ScaleJob Role → ScaleStage) : ∀ {jobs : List (ScaleJob Role)} {i : Nat}
    {job : ScaleJob Role}, jobs[i]? = some job →
      work (jobs.modify i fun job => { job with stage := stage job }) + ScaleStage.left job.stage =
        work jobs + ScaleStage.left (stage job)
  | [], i, job, h => by cases h
  | job' :: jobs, 0, job, h => by
      cases h
      simp only [List.modify_zero_cons, work, List.map_cons, List.sum_cons]
      omega
  | job' :: jobs, i + 1, job, h => by
      have ih := work_modify stage (show jobs[i]? = some job by simpa using h)
      simp only [List.modify_succ_cons, work, List.map_cons, List.sum_cons] at ih ⊢
      omega

theorem lex_of_fst {n n' k k' : Nat} (h : n < n') : toLex (n, k) < toLex (n', k') :=
  Prod.Lex.toLex_lt_toLex.mpr (.inl h)

theorem lex_of_snd {n k k' : Nat} (h : k < k') : toLex (n, k) < toLex (n, k') :=
  Prod.Lex.toLex_lt_toLex.mpr (.inr ⟨rfl, h⟩)

theorem wake_phase (s : ElasticLoops Role) (task : ScaleTask Role) :
    (s.wake task).down = s.down ∧
      ((s.wake task).idle .up = true ∨ (s.wake task).rank .up < toLex (3, 0)) := by
  unfold wake
  split
  · exact ⟨rfl, .inl rfl⟩
  · exact ⟨rfl, .inr (lex_of_fst (by decide))⟩

/-- A task that was taken is closer to its end, or already there. -/
theorem take_phase (hidle : s.idle side = true) (usage : InstanceIdentifier Role → Usage)
    (task : ScaleTask Role) :
    ((s.take side usage task).idle side = true ∨ (s.take side usage task).rank side < s.rank side) ∧
      ∀ other, other ≠ side → SamePhase s (s.take side usage task) other := by
  cases side with
  | up =>
      have hup : s.rank .up = toLex (4, 0) := by
        unfold idle at hidle
        dsimp only at hidle
        split at hidle
        · rename_i hup
          rw [rank, hup]
        · cases hidle
      unfold take takeUp
      dsimp only
      split
      · obtain ⟨hdown, hrank⟩ := wake_phase s task
        refine ⟨hrank.imp_right fun hlt => ?_, fun other hother => ?_⟩
        · rw [hup]
          exact hlt.trans (lex_of_fst (by decide))
        · cases other with
          | up => exact absurd rfl hother
          | down => exact hdown
      · refine ⟨.inr ?_, fun other hother => ?_⟩
        · rw [hup]
          exact lex_of_fst (by decide)
        · cases other with
          | up => exact absurd rfl hother
          | down => exact rfl
  | down =>
      have hdown : s.rank .down = toLex (2, 0) := by
        unfold idle at hidle
        dsimp only at hidle
        split at hidle
        · rename_i hdown
          rw [rank, hdown]
        · cases hidle
      unfold take takeDown
      dsimp only
      split
      · exact ⟨.inl hidle, fun other _ => by cases other <;> rfl⟩
      · refine ⟨.inr ?_, fun other hother => ?_⟩
        · rw [hdown]
          exact lex_of_fst (by decide)
        · cases other with
          | up => exact rfl
          | down => exact absurd rfl hother

omit [DecidableEq Role] in
/-- A call that started is closer to its end. -/
theorem work_start {i : Nat} {stage : ScaleJob Role → ScaleStage}
    (h : HasStage jobs i .scheduled) (hstage : ∀ job, stage job ≠ .scheduled) :
    work (jobs.modify i fun job => { job with stage := stage job }) < work jobs := by
  obtain ⟨job, hjob, hscheduled⟩ := h
  have hwork := work_modify stage hjob
  have hleft : ScaleStage.left (stage job) < 2 := by
    cases hcase : stage job with
    | scheduled => exact absurd hcase (hstage job)
    | sent => decide
    | finished => decide
  rw [hscheduled, ScaleStage.left] at hwork
  omega

/-- A call that was answered is over. -/
theorem work_reply {e e' : ElasticExecutor Role} {i : Nat} {status : InstanceStatus} {ok : Bool}
    {jobs' : List (ScaleJob Role)} (h : HasStage jobs i .sent)
    (hok : reply e jobs i status ok = .ok (e', jobs')) : work jobs' < work jobs := by
  obtain ⟨job, hjob, hsent⟩ := h
  have hget : jobs[i]? = some job := hjob
  have hjobs : jobs' = jobs.modify i fun job => { job with stage := .finished } := by
    unfold reply at hok
    rw [hget] at hok
    cases ok with
    | true =>
        obtain ⟨e₁, -, hok⟩ := bind_eq_ok.mp hok
        cases hok
        rfl
    | false =>
        cases hok
        rfl
  have hwork := work_modify (fun _ => .finished) hjob
  rw [hsent, ← hjobs, ScaleStage.left, ScaleStage.left] at hwork
  omega

/-- A step brings its handler closer to the end of the task, or to its end. -/
theorem exec_phase (hallowed : s.Allowed a) (htake : isTake a = false) (hexec : exec s a = .ok s') :
    (s'.idle (sideOf a) = true ∨ s'.rank (sideOf a) < s.rank (sideOf a)) ∧
      ∀ other, other ≠ sideOf a → SamePhase s s' other := by
  have hdown : sideOf a = .up → s'.down = s.down → ∀ other, other ≠ sideOf a →
      SamePhase s s' other := by
    intro hside hdown other hother
    cases other with
    | up => exact absurd hside.symm hother
    | down => exact hdown
  have hup : sideOf a = .down → s'.up = s.up → ∀ other, other ≠ sideOf a →
      SamePhase s s' other := by
    intro hside hup other hother
    cases other with
    | up => exact hup
    | down => exact absurd hside.symm hother
  cases a with
  | takeUp usage task => cases htake
  | takeDown usage task => cases htake
  | startSleepUp i busy =>
      dsimp only [Allowed] at hallowed
      split at hallowed
      · rename_i task jobs hphase
        rw [exec, hphase] at hexec
        cases hexec
        refine ⟨.inr ?_, hdown rfl rfl⟩
        show toLex (3, work _) < s.rank .up
        rw [rank, hphase]
        refine lex_of_snd (work_start hallowed fun job => ?_)
        split <;> exact ScaleStage.noConfusion
      · exact hallowed.elim
  | replySleepUp i ok =>
      dsimp only [Allowed] at hallowed
      split at hallowed
      · rename_i task jobs hphase
        rw [exec, hphase] at hexec
        obtain ⟨⟨e', jobs'⟩, hreply, hexec⟩ := bind_eq_ok.mp hexec
        cases hexec
        refine ⟨.inr ?_, hdown rfl rfl⟩
        show toLex (3, work jobs') < s.rank .up
        rw [rank, hphase]
        exact lex_of_snd (work_reply hallowed hreply)
      · exact hallowed.elim
  | sleptUp =>
      dsimp only [Allowed] at hallowed
      split at hallowed
      · rename_i task jobs hphase
        rw [exec, hphase] at hexec
        cases hexec
        obtain ⟨hsame, hrank⟩ := wake_phase s task
        refine ⟨hrank.imp_right fun hlt => ?_, hdown rfl hsame⟩
        show (s.wake task).rank .up < s.rank .up
        rw [rank.eq_1 s, hphase]
        refine hlt.trans_le ?_
        exact Prod.Lex.toLex_le_toLex.mpr (.inr ⟨rfl, Nat.zero_le _⟩)
      · exact hallowed.elim
  | startWake i =>
      dsimp only [Allowed] at hallowed
      split at hallowed
      · rename_i task jobs hphase
        rw [exec, hphase] at hexec
        cases hexec
        refine ⟨.inr ?_, hdown rfl rfl⟩
        show toLex (2, work _) < s.rank .up
        rw [rank, hphase]
        exact lex_of_snd (work_start hallowed fun job => ScaleStage.noConfusion)
      · exact hallowed.elim
  | replyWake i ok =>
      dsimp only [Allowed] at hallowed
      split at hallowed
      · rename_i task jobs hphase
        rw [exec, hphase] at hexec
        obtain ⟨⟨e', jobs'⟩, hreply, hexec⟩ := bind_eq_ok.mp hexec
        cases hexec
        refine ⟨.inr ?_, hdown rfl rfl⟩
        show toLex (2, work jobs') < s.rank .up
        rw [rank, hphase]
        exact lex_of_snd (work_reply hallowed hreply)
      · exact hallowed.elim
  | wokenUp =>
      dsimp only [Allowed] at hallowed
      split at hallowed
      · rename_i task jobs hphase
        rw [exec, hphase] at hexec
        cases hexec
        refine ⟨.inr ?_, hdown rfl rfl⟩
        show toLex (1, 0) < s.rank .up
        rw [rank, hphase]
        exact lex_of_fst (by decide)
      · exact hallowed.elim
  | interrupted =>
      cases hexec
      exact ⟨.inl rfl, hdown rfl rfl⟩
  | startSleepDown i busy =>
      dsimp only [Allowed] at hallowed
      split at hallowed
      · rename_i jobs hphase
        rw [exec, hphase] at hexec
        cases hexec
        refine ⟨.inr ?_, hup rfl rfl⟩
        show toLex (1, work _) < s.rank .down
        rw [rank, hphase]
        refine lex_of_snd (work_start hallowed fun job => ?_)
        split <;> exact ScaleStage.noConfusion
      · exact hallowed.elim
  | replySleepDown i ok =>
      dsimp only [Allowed] at hallowed
      split at hallowed
      · rename_i jobs hphase
        rw [exec, hphase] at hexec
        obtain ⟨⟨e', jobs'⟩, hreply, hexec⟩ := bind_eq_ok.mp hexec
        cases hexec
        refine ⟨.inr ?_, hup rfl rfl⟩
        show toLex (1, work jobs') < s.rank .down
        rw [rank, hphase]
        exact lex_of_snd (work_reply hallowed hreply)
      · exact hallowed.elim
  | sleptDown =>
      cases hexec
      exact ⟨.inl rfl, hup rfl rfl⟩

omit [DecidableEq Role] in
/-- A `gather` is over, or one of its calls can go on. -/
theorem finished_or_stage (jobs : List (ScaleJob Role)) :
    ScaleJobsFinished jobs ∨ ∃ i, HasStage jobs i .scheduled ∨ HasStage jobs i .sent := by
  by_cases hall : ScaleJobsFinished jobs
  · exact .inl hall
  · obtain ⟨job, hjob⟩ := not_forall.mp hall
    obtain ⟨hjob, hstage⟩ := Classical.not_imp.mp hjob
    obtain ⟨i, hi⟩ := List.mem_iff_getElem?.mp hjob
    refine .inr ⟨i, ?_⟩
    cases hcase : job.stage with
    | scheduled => exact .inl ⟨job, hi, hcase⟩
    | sent => exact .inr ⟨job, hi, hcase⟩
    | finished => exact absurd hcase hstage

omit [DecidableEq Role] in
/-- A handler at work can go on. -/
theorem exists_allowed (Usage : Type) [LinearOrder Usage] (hbusy : s.idle side = false) :
    ∃ a : Action Role Usage, s.Allowed a ∧ isTake a = false ∧ sideOf a = side := by
  cases side with
  | up =>
      cases hphase : s.up with
      | idle => rw [idle, hphase] at hbusy; cases hbusy
      | sleeping task jobs =>
          rcases finished_or_stage jobs with hall | ⟨i, hi | hi⟩
          · exact ⟨.sleptUp, by rw [Allowed, hphase]; exact hall, rfl, rfl⟩
          · exact ⟨.startSleepUp i false, by rw [Allowed, hphase]; exact hi, rfl, rfl⟩
          · exact ⟨.replySleepUp i false, by rw [Allowed, hphase]; exact hi, rfl, rfl⟩
      | waking task jobs =>
          rcases finished_or_stage jobs with hall | ⟨i, hi | hi⟩
          · exact ⟨.wokenUp, by rw [Allowed, hphase]; exact hall, rfl, rfl⟩
          · exact ⟨.startWake i, by rw [Allowed, hphase]; exact hi, rfl, rfl⟩
          · exact ⟨.replyWake i false, by rw [Allowed, hphase]; exact hi, rfl, rfl⟩
      | interrupting => exact ⟨.interrupted, by rw [Allowed, hphase]; trivial, rfl, rfl⟩
  | down =>
      cases hphase : s.down with
      | idle => rw [idle, hphase] at hbusy; cases hbusy
      | sleeping jobs =>
          rcases finished_or_stage jobs with hall | ⟨i, hi | hi⟩
          · exact ⟨.sleptDown, by rw [Allowed, hphase]; exact hall, rfl, rfl⟩
          · exact ⟨.startSleepDown i false, by rw [Allowed, hphase]; exact hi, rfl, rfl⟩
          · exact ⟨.replySleepDown i false, by rw [Allowed, hphase]; exact hi, rfl, rfl⟩

end ElasticLoops

/-! ### Decisions and their actions -/

inductive ScalingActionType
  | scaleUp
  | scaleDown
  | unknown

structure ScalingAction (Role : Type) where
  actionType : ScalingActionType
  task : ScaleTask Role

/-- A task in the queue of a handler. -/
structure QueuedTask (Role : Type) where
  task : ScaleTask Role
  /-- the decision, and which of its actions it is; the source only keeps the decision -/
  id : Nat × Nat

/-- A handler loop. -/
structure ScaleHandler (Role : Type) where
  queue : List (QueuedTask Role)
  /-- the task at hand -/
  current : Option (QueuedTask Role)
  running : Bool

/-- The tasks of a handler that are not finished. -/
def ScaleHandler.tasks {Role : Type} (h : ScaleHandler Role) : List (Nat × Nat) :=
  (h.current.toList ++ h.queue).map (·.id)

structure DecisionLoops (Role : Type) where
  loops : ElasticLoops Role
  handler : Side → ScaleHandler Role
  nextDecisionId : Nat
  decisionExecutionInProgress : Bool
  decisionPendingActionCounts : Dict Nat Nat
  /-- the actions of the decisions accepted so far -/
  accepted : List (Nat × Nat)
  /-- those for which `_mark_decision_action_finished` was called -/
  finished : List (Nat × Nat)

namespace DecisionLoops

variable {Role Usage : Type} (s : DecisionLoops Role)

def start (e : ElasticExecutor Role) : DecisionLoops Role where
  loops := ElasticLoops.start e
  handler _ := ⟨[], none, true⟩
  nextDecisionId := 1
  decisionExecutionInProgress := false
  decisionPendingActionCounts := .empty
  accepted := []
  finished := []

/-- `_mark_decision_action_finished`. -/
def markDecisionActionFinished (id : Nat × Nat) : DecisionLoops Role :=
  let s := { s with finished := s.finished ++ [id] }
  match s.decisionPendingActionCounts.get? id.1 with
  | none => s
  | some count =>
      if count - 1 > 0 then
        { s with
          decisionPendingActionCounts := s.decisionPendingActionCounts.set id.1 (count - 1) }
      else
        let counts := s.decisionPendingActionCounts.erase id.1
        { s with
          decisionPendingActionCounts := counts
          decisionExecutionInProgress :=
            if counts.items = [] then false else s.decisionExecutionInProgress }

def setHandler (side : Side) (handler : ScaleHandler Role) : DecisionLoops Role :=
  { s with handler := Function.update s.handler side handler }

/-- `task_queue.put_nowait(task)`. -/
def put (side : Side) (queued : QueuedTask Role) : DecisionLoops Role :=
  let handler := s.handler side
  s.setHandler side { handler with queue := handler.queue ++ [queued] }

/-- One action of a decision. -/
def enqueue (decisionId : Nat) (s : DecisionLoops Role) (item : ScalingAction Role × Nat) :
    DecisionLoops Role :=
  match item.1.actionType with
  | .scaleUp => s.put .up ⟨item.1.task, (decisionId, item.2)⟩
  | .scaleDown => s.put .down ⟨item.1.task, (decisionId, item.2)⟩
  | .unknown => s.markDecisionActionFinished (decisionId, item.2)

/-- A decision gets its id and its count. -/
def openDecision (actions : List (ScalingAction Role)) : DecisionLoops Role :=
  { s with
    nextDecisionId := s.nextDecisionId + 1
    decisionExecutionInProgress := true
    decisionPendingActionCounts :=
      s.decisionPendingActionCounts.set s.nextDecisionId actions.length
    accepted := s.accepted ++ actions.zipIdx.map fun item => (s.nextDecisionId, item.2) }

/-- What the monitor loop does with a decision. -/
def accept (actions : List (ScalingAction Role)) : DecisionLoops Role :=
  if actions = [] then s
  else actions.zipIdx.foldl (enqueue s.nextDecisionId) (s.openDecision actions)

/-- `_abandon_in_flight_decision`. -/
def abandonInFlightDecision : DecisionLoops Role :=
  if s.decisionExecutionInProgress = false ∧ s.decisionPendingActionCounts.items = [] then s
  else { s with decisionPendingActionCounts := .empty, decisionExecutionInProgress := false }

/-- The `finally` of a handler. -/
def finish (side : Side) : DecisionLoops Role :=
  let handler := s.handler side
  match handler.current with
  | none => s
  | some queued =>
      (s.setHandler side { handler with current := none }).markDecisionActionFinished queued.id

/-- A handler that is done with its task. -/
def settle (side : Side) : DecisionLoops Role :=
  if s.loops.idle side = true then s.finish side else s

/-- A command of a handler raised: the exception ends the loop. The commands of an ended loop are
not awaited by anyone. -/
def fail (side : Side) : DecisionLoops Role :=
  if (s.handler side).running = true then
    let s := s.finish side
    let handler := s.handler side
    s.setHandler side { handler with running := false }
  else s

inductive Action (Role Usage : Type)
  | accept (actions : List (ScalingAction Role))
  | abandon
  | take (side : Side) (usage : InstanceIdentifier Role → Usage)
  | step (a : ElasticLoops.Action Role Usage)
  /-- the command of one of the calls raises -/
  | raised (side : Side) (i : Nat)

/-- The end of a call whose command raises. -/
def unanswered (s : ElasticLoops Role) (side : Side) (i : Nat) : ElasticLoops.Action Role Usage :=
  match side, s.up with
  | .up, .waking _ _ => .replyWake i false
  | .up, _ => .replySleepUp i false
  | .down, _ => .replySleepDown i false

def exec [DecidableEq Role] [LinearOrder Usage] (s : DecisionLoops Role) :
    Action Role Usage → Except PyError (DecisionLoops Role)
  | .accept actions => .ok (s.accept actions)
  | .abandon => .ok s.abandonInFlightDecision
  | .take side usage =>
      let handler := s.handler side
      match handler.queue with
      | [] => .ok s
      | queued :: rest =>
          let s := s.setHandler side { handler with queue := rest, current := some queued }
          .ok (settle { s with loops := s.loops.take side usage queued.task } side)
  | .step a => do
      let loops ← s.loops.exec a
      return settle { s with loops := loops } (ElasticLoops.sideOf a)
  | .raised side i => do
      let loops ← s.loops.exec (unanswered s.loops side i : ElasticLoops.Action Role Usage)
      return fail { s with loops := loops } side

/-- A handler takes a task when it is done with the last one. Commands go on when their loop has
ended, the loop does not. -/
def Allowed : Action Role Usage → Prop
  | .accept _ => True
  | .abandon => True
  | .take side _ => (s.handler side).running = true ∧ s.loops.idle side = true ∧
      (s.handler side).queue ≠ []
  | .step a => s.loops.Allowed a ∧ ElasticLoops.isTake a = false ∧
      (ElasticLoops.isLoopStep a = true → (s.handler (ElasticLoops.sideOf a)).running = true)
  | .raised side i =>
      s.loops.Allowed (unanswered s.loops side i : ElasticLoops.Action Role Usage)

/-- A `SLEEP` or `WAKE_UP` command raises. -/
def Raises : Action Role Usage → Prop
  | .raised _ _ => True
  | _ => False

/-- A step of a handler: of its loop or of one of its commands. -/
def OfSide (side : Side) : Action Role Usage → Prop
  | .take side' _ => side' = side
  | .step a => ElasticLoops.sideOf a = side
  | .raised side' _ => side' = side
  | _ => False

/-! ### The flag and the counts -/

variable {s s' : DecisionLoops Role} {side : Side} {id : Nat × Nat}

/-- The flag says whether there are counts. -/
def FlagExact (s : DecisionLoops Role) : Prop :=
  s.decisionExecutionInProgress = true ↔ s.decisionPendingActionCounts.items ≠ []

/-- The counts of the decisions that are not abandoned. -/
def Counts (s : DecisionLoops Role) (count : Nat → Nat) : Prop :=
  ∀ d n, s.decisionPendingActionCounts.get? d = some n → n = count d ∧ 0 < n

theorem FlagExact.mark (h : FlagExact s) (id : Nat × Nat) :
    FlagExact (s.markDecisionActionFinished id) := by
  unfold markDecisionActionFinished
  dsimp only
  split
  · exact h
  · rename_i count hget
    have hsome : s.decisionPendingActionCounts.items ≠ [] :=
      List.ne_nil_of_mem (Dict.get?_eq_some_iff.mp hget)
    split
    · have hset : (s.decisionPendingActionCounts.set id.1 (count - 1)).get? id.1 =
          some (count - 1) :=
        Dict.get?_set_self ..
      exact iff_of_true (h.mpr hsome) (List.ne_nil_of_mem (Dict.get?_eq_some_iff.mp hset))
    · unfold FlagExact
      dsimp only
      split
      · rename_i hnone
        exact iff_of_false (by decide) fun hne => hne hnone
      · rename_i hne
        exact iff_of_true (h.mpr hsome) hne

/-- The count of a decision goes down by one. -/
theorem Counts.mark {count count' : Nat → Nat} (h : Counts s count)
    (hcount : ∀ d, count d = count' d + if d = id.1 then 1 else 0) :
    Counts (s.markDecisionActionFinished id) count' := by
  unfold markDecisionActionFinished
  dsimp only
  cases hget : s.decisionPendingActionCounts.get? id.1 with
  | none =>
      intro d n hd
      have hd : s.decisionPendingActionCounts.get? d = some n := hd
      have hne : d ≠ id.1 := by
        rintro rfl
        rw [hget] at hd
        cases hd
      have hboth := h d n hd
      rwa [hcount, if_neg hne] at hboth
  | some n₀ =>
      obtain ⟨hn₀, hpos⟩ := h id.1 n₀ hget
      rw [hcount, if_pos rfl] at hn₀
      dsimp only
      split
      · rename_i hleft
        intro d n hd
        have hd : (s.decisionPendingActionCounts.set id.1 (n₀ - 1)).get? d = some n := hd
        rw [Dict.get?_set] at hd
        split at hd
        · rename_i heq
          cases hd
          rw [heq]
          omega
        · rename_i hne
          have hboth := h d n hd
          rwa [hcount, if_neg hne] at hboth
      · intro d n hd
        have hd : (s.decisionPendingActionCounts.erase id.1).get? d = some n := hd
        rw [Dict.get?_erase] at hd
        split at hd
        · cases hd
        · rename_i hne
          have hboth := h d n hd
          rwa [hcount, if_neg hne] at hboth

/-! ### Where the actions are -/

/-- The actions in the queues and at hand. -/
def waiting (s : DecisionLoops Role) : List (Nat × Nat) :=
  (s.handler .up).tasks ++ (s.handler .down).tasks

def ids (s : DecisionLoops Role) : List (Nat × Nat) := s.finished ++ s.waiting

/-- The number of actions of a decision that are not finished. -/
def unfinished (s : DecisionLoops Role) (d : Nat) : Nat := s.waiting.countP fun id => id.1 = d

theorem handler_setHandler (handler : ScaleHandler Role) (side' : Side) :
    (s.setHandler side handler).handler side' =
      if side' = side then handler else s.handler side' :=
  Function.update_apply ..

/-- Some actions are taken from a handler. -/
theorem waiting_setHandler {handler : ScaleHandler Role} {taken : List (Nat × Nat)}
    (hperm : (s.handler side).tasks.Perm (taken ++ handler.tasks)) :
    s.waiting.Perm (taken ++ (s.setHandler side handler).waiting) := by
  cases side with
  | up =>
      refine (hperm.append_right _).trans ?_
      rw [List.append_assoc]
      exact List.Perm.refl _
  | down =>
      refine (hperm.append_left _).trans ?_
      exact List.perm_append_comm_assoc ..

/-- Marking an action finished does not touch the handlers. -/
structure Marked (s : DecisionLoops Role) (id : Nat × Nat) (s' : DecisionLoops Role) : Prop where
  loops : s'.loops = s.loops
  handler : s'.handler = s.handler
  nextDecisionId : s'.nextDecisionId = s.nextDecisionId
  accepted : s'.accepted = s.accepted
  finished : s'.finished = s.finished ++ [id]

theorem marked (s : DecisionLoops Role) (id : Nat × Nat) :
    Marked s id (s.markDecisionActionFinished id) := by
  unfold markDecisionActionFinished
  dsimp only
  split
  · exact ⟨rfl, rfl, rfl, rfl, rfl⟩
  · split
    · exact ⟨rfl, rfl, rfl, rfl, rfl⟩
    · exact ⟨rfl, rfl, rfl, rfl, rfl⟩

theorem Marked.waiting (h : Marked s id s') : s'.waiting = s.waiting := by
  unfold DecisionLoops.waiting
  rw [h.handler]

/-- The books are in order. -/
structure Books (s : DecisionLoops Role) : Prop where
  flag : FlagExact s
  counts : Counts s s.unfinished
  fresh : ∀ id ∈ s.ids, id.1 < s.nextDecisionId
  unique : s.ids.Nodup
  located : ∀ id, id ∈ s.accepted ↔ id ∈ s.ids

/-- The books were not touched. -/
structure SameBooks (s s' : DecisionLoops Role) : Prop where
  flag : s'.decisionExecutionInProgress = s.decisionExecutionInProgress
  counts : s'.decisionPendingActionCounts = s.decisionPendingActionCounts
  nextDecisionId : s'.nextDecisionId = s.nextDecisionId
  accepted : s'.accepted = s.accepted
  finished : s'.finished = s.finished

/-- Tasks moved within the handlers. -/
theorem Books.moved (h : Books s) (hsame : SameBooks s s') (hperm : s.waiting.Perm s'.waiting) :
    Books s' where
  flag := by
    unfold FlagExact
    rw [hsame.flag, hsame.counts]
    exact h.flag
  counts d n hd := by
    rw [hsame.counts] at hd
    rw [unfinished, ← hperm.countP_eq]
    exact h.counts d n hd
  fresh id hid := by
    rw [ids, hsame.finished, ← (hperm.append_left s.finished).mem_iff] at hid
    rw [hsame.nextDecisionId]
    exact h.fresh id hid
  unique := by
    rw [ids, hsame.finished, ← (hperm.append_left s.finished).nodup_iff]
    exact h.unique
  located id := by
    rw [hsame.accepted, ids, hsame.finished, ← (hperm.append_left s.finished).mem_iff]
    exact h.located id

theorem countP_cons_id (l : List (Nat × Nat)) (d : Nat) :
    (id :: l).countP (fun id => id.1 = d) =
      l.countP (fun id => id.1 = d) + if d = id.1 then 1 else 0 := by
  rw [List.countP_cons]
  by_cases heq : id.1 = d
  · simp [heq]
  · simp [heq, Ne.symm heq]

/-- An action left the handlers and is marked finished. -/
theorem Books.mark (h : Books s) (hsame : SameBooks s s')
    (hperm : s.waiting.Perm (id :: s'.waiting)) :
    Books (s'.markDecisionActionFinished id) := by
  have hmarked := marked s' id
  have hids : s.ids.Perm (s'.markDecisionActionFinished id).ids := by
    rw [ids, ids, hmarked.finished, hmarked.waiting, hsame.finished, List.append_assoc]
    exact hperm.append_left _
  refine ⟨FlagExact.mark ?_ id, ?_, ?_, hids.nodup_iff.mp h.unique, ?_⟩
  · unfold FlagExact
    rw [hsame.flag, hsame.counts]
    exact h.flag
  · have hcounts : Counts s' s.unfinished := fun d n hd => h.counts d n (hsame.counts ▸ hd)
    refine hcounts.mark fun d => ?_
    rw [unfinished, unfinished, hmarked.waiting, hperm.countP_eq, countP_cons_id]
  · intro id' hid
    rw [hmarked.nextDecisionId, hsame.nextDecisionId]
    exact h.fresh id' (hids.mem_iff.mpr hid)
  · intro id'
    rw [hmarked.accepted, hsame.accepted]
    exact (h.located id').trans hids.mem_iff

theorem Books.finish (h : Books s) (side : Side) : Books (s.finish side) := by
  unfold DecisionLoops.finish
  dsimp only
  cases hcurrent : (s.handler side).current with
  | none => exact h
  | some queued =>
      refine h.mark ⟨rfl, rfl, rfl, rfl, rfl⟩ ?_
      refine @waiting_setHandler _ s side _ [queued.id] ?_
      rw [ScaleHandler.tasks, hcurrent]
      exact List.Perm.refl _

theorem Books.abandon (h : Books s) : Books s.abandonInFlightDecision := by
  unfold abandonInFlightDecision
  split
  · exact h
  · refine ⟨iff_of_false Bool.false_ne_true fun hne => hne rfl, fun d n hd => ?_, h.fresh, h.unique,
      h.located⟩
    cases hd

/-! ### Accepting a decision -/

/-- Tasks are added to the queues; nothing else changes for the handlers. -/
structure Grows (s s' : DecisionLoops Role) : Prop where
  loops : s'.loops = s.loops
  handler : ∀ side, (s'.handler side).current = (s.handler side).current ∧
    (s'.handler side).running = (s.handler side).running ∧
    ∃ more, (s'.handler side).queue = (s.handler side).queue ++ more
  finished : ∀ id ∈ s.finished, id ∈ s'.finished

theorem Grows.refl (s : DecisionLoops Role) : Grows s s :=
  ⟨rfl, fun _ => ⟨rfl, rfl, [], (List.append_nil _).symm⟩, fun _ hid => hid⟩

theorem Grows.trans {s'' : DecisionLoops Role} (h : Grows s s') (h' : Grows s' s'') :
    Grows s s'' where
  loops := h'.loops.trans h.loops
  handler side := by
    obtain ⟨hcurrent, hrunning, more, hqueue⟩ := h.handler side
    obtain ⟨hcurrent', hrunning', more', hqueue'⟩ := h'.handler side
    refine ⟨hcurrent'.trans hcurrent, hrunning'.trans hrunning, more ++ more', ?_⟩
    rw [hqueue', hqueue, List.append_assoc]
  finished id hid := h'.finished id (h.finished id hid)

theorem Grows.mark (s : DecisionLoops Role) (id : Nat × Nat) :
    Grows s (s.markDecisionActionFinished id) := by
  have hmarked := marked s id
  refine ⟨hmarked.loops, fun side => ?_, fun id' hid => ?_⟩
  · rw [hmarked.handler]
    exact ⟨rfl, rfl, [], (List.append_nil _).symm⟩
  · rw [hmarked.finished]
    exact List.mem_append_left _ hid

theorem Grows.put (s : DecisionLoops Role) (side : Side) (queued : QueuedTask Role) :
    Grows s (s.put side queued) := by
  refine ⟨rfl, fun side' => ?_, fun _ hid => hid⟩
  rw [DecisionLoops.put, handler_setHandler]
  split
  · rename_i heq
    rw [heq]
    exact ⟨rfl, rfl, [queued], rfl⟩
  · exact ⟨rfl, rfl, [], (List.append_nil _).symm⟩

/-- The books while the actions of a decision are put into the queues, with some still to come. -/
structure Entering (d left : Nat) (s : DecisionLoops Role) : Prop where
  flag : FlagExact s
  counts : Counts s fun e => s.unfinished e + if e = d then left else 0

theorem waiting_put (queued : QueuedTask Role) :
    (queued.id :: s.waiting).Perm (s.put side queued).waiting := by
  have htasks : ((s.put side queued).handler side).tasks =
      (s.handler side).tasks ++ [queued.id] := by
    rw [put, handler_setHandler, if_pos rfl]
    simp [ScaleHandler.tasks]
  have hback : (s.put side queued).setHandler side (s.handler side) = s := by
    rw [put, setHandler, setHandler]
    simp
  have hperm := @waiting_setHandler _ (s.put side queued) side (s.handler side) [queued.id]
    (by rw [htasks]; exact List.perm_append_singleton ..)
  rw [hback] at hperm
  exact hperm.symm

/-- One action less is still to come. -/
theorem Entering.enqueue {d left : Nat} (h : Entering d (left + 1) s)
    (item : ScalingAction Role × Nat) :
    Entering d left (s.enqueue d item) ∧
      ((d, item.2) :: s.ids).Perm (s.enqueue d item).ids ∧ Grows s (s.enqueue d item) := by
  have hput : ∀ side, Entering d left (s.put side ⟨item.1.task, (d, item.2)⟩) ∧
      ((d, item.2) :: s.ids).Perm (s.put side ⟨item.1.task, (d, item.2)⟩).ids ∧
      Grows s (s.put side ⟨item.1.task, (d, item.2)⟩) := by
    intro side
    have hperm := @waiting_put _ s side ⟨item.1.task, (d, item.2)⟩
    refine ⟨⟨h.flag, fun e n hn => ?_⟩, ?_, .put s side _⟩
    · obtain ⟨hcount, hpos⟩ := h.counts e n hn
      refine ⟨hcount.trans ?_, hpos⟩
      dsimp only [unfinished]
      rw [← hperm.countP_eq, countP_cons_id]
      split
      · omega
      · omega
    · exact (List.perm_middle.symm).trans (hperm.append_left s.finished)
  unfold DecisionLoops.enqueue
  split
  · exact hput .up
  · exact hput .down
  · have hmarked := marked s (d, item.2)
    refine ⟨⟨h.flag.mark _, ?_⟩, ?_, .mark s _⟩
    · refine h.counts.mark fun e => ?_
      rw [unfinished, unfinished, hmarked.waiting]
      split
      · omega
      · omega
    · rw [ids, ids, hmarked.finished, hmarked.waiting, List.append_assoc]
      exact List.perm_middle.symm

theorem Entering.foldl {d : Nat} : ∀ {items : List (ScalingAction Role × Nat)}
    {s : DecisionLoops Role}, Entering d items.length s →
      Entering d 0 (items.foldl (DecisionLoops.enqueue d) s) ∧
        (items.map (fun item => (d, item.2)) ++ s.ids).Perm
          (items.foldl (DecisionLoops.enqueue d) s).ids ∧
        Grows s (items.foldl (DecisionLoops.enqueue d) s)
  | [], s, h => ⟨h, List.Perm.refl _, .refl s⟩
  | item :: items, s, h => by
      obtain ⟨hentering, hperm, hgrows⟩ := h.enqueue item
      obtain ⟨hentering', hperm', hgrows'⟩ := hentering.foldl
      refine ⟨hentering', ?_, hgrows.trans hgrows'⟩
      refine List.Perm.trans ?_ hperm'
      rw [List.map_cons, List.cons_append]
      exact (List.perm_middle.symm).trans (hperm.append_left _)

theorem nodup_zipIdx_ids (d : Nat) (actions : List (ScalingAction Role)) :
    (actions.zipIdx.map fun item => (d, item.2)).Nodup := by
  have hsnd : (actions.zipIdx.map Prod.snd).Nodup := by
    rw [List.zipIdx_map_snd]
    exact List.nodup_range'
  have hmap : (actions.zipIdx.map fun item => (d, item.2)) =
      (actions.zipIdx.map Prod.snd).map fun j => (d, j) := by
    rw [List.map_map]
    rfl
  rw [hmap]
  exact hsnd.map fun _ _ heq => (Prod.mk.inj heq).2

theorem foldl_enqueue_same (d : Nat) (items : List (ScalingAction Role × Nat)) :
    (items.foldl (enqueue d) s).nextDecisionId = s.nextDecisionId ∧
      (items.foldl (enqueue d) s).accepted = s.accepted := by
  refine List.foldlRecOn items (enqueue d) (motive := fun s' =>
    s'.nextDecisionId = s.nextDecisionId ∧ s'.accepted = s.accepted) ⟨rfl, rfl⟩
    fun s' hs' item _ => ?_
  unfold enqueue
  split
  · exact hs'
  · exact hs'
  · rw [(marked s' _).nextDecisionId, (marked s' _).accepted]
    exact hs'

/-- No action of a decision that was just opened is there yet. -/
theorem Books.entering (h : Books s) {actions : List (ScalingAction Role)} (hne : actions ≠ []) :
    Entering s.nextDecisionId actions.zipIdx.length (s.openDecision actions) := by
  have hnone : s.unfinished s.nextDecisionId = 0 := by
    rw [unfinished, List.countP_eq_zero]
    intro id hid heq
    have hlt := h.fresh id (List.mem_append_right _ hid)
    rw [of_decide_eq_true heq] at hlt
    exact lt_irrefl _ hlt
  refine ⟨?_, fun d n hd => ?_⟩
  · have hget : (s.decisionPendingActionCounts.set s.nextDecisionId actions.length).get?
        s.nextDecisionId = some actions.length := Dict.get?_set_self ..
    exact iff_of_true rfl (List.ne_nil_of_mem (Dict.get?_eq_some_iff.mp hget))
  · have hd : (s.decisionPendingActionCounts.set s.nextDecisionId actions.length).get? d =
      some n := hd
    rw [Dict.get?_set] at hd
    show n = s.unfinished d + (if d = s.nextDecisionId then actions.zipIdx.length else 0) ∧ _
    split at hd
    · rename_i heq
      cases hd
      rw [if_pos heq, heq, hnone, List.length_zipIdx, Nat.zero_add]
      exact ⟨rfl, List.length_pos_iff.mpr hne⟩
    · rename_i hother
      rw [if_neg hother, Nat.add_zero]
      exact h.counts d n hd

/-- A decision is accepted. -/
theorem Books.accept (h : Books s) (actions : List (ScalingAction Role)) :
    Books (s.accept actions) ∧ Grows s (s.accept actions) := by
  unfold DecisionLoops.accept
  split
  · exact ⟨h, .refl s⟩
  · rename_i hne
    obtain ⟨hentered, hperm, hgrows⟩ := (h.entering hne).foldl
    obtain ⟨hnext, haccepted⟩ :=
      @foldl_enqueue_same _ (s.openDecision actions) s.nextDecisionId actions.zipIdx
    have hids : (s.openDecision actions).ids = s.ids := rfl
    rw [hids] at hperm
    refine ⟨⟨hentered.flag, fun d n hd => ?_, fun id hid => ?_, ?_, fun id => ?_⟩, ?_⟩
    · obtain ⟨hcount, hpos⟩ := hentered.counts d n hd
      refine ⟨hcount.trans ?_, hpos⟩
      dsimp only
      rw [ite_self, Nat.add_zero]
    · rw [hnext]
      rcases List.mem_append.mp (hperm.mem_iff.mpr hid) with hnew | hold
      · obtain ⟨item, -, rfl⟩ := List.mem_map.mp hnew
        exact Nat.lt_succ_self _
      · exact Nat.lt_succ_of_lt (h.fresh id hold)
    · rw [← hperm.nodup_iff, List.nodup_append]
      refine ⟨nodup_zipIdx_ids _ actions, h.unique, fun id hid id' hid' heq => ?_⟩
      obtain ⟨item, -, rfl⟩ := List.mem_map.mp hid
      have hlt := h.fresh id' hid'
      rw [← heq] at hlt
      exact lt_irrefl _ hlt
    · rw [haccepted, ← hperm.mem_iff, List.mem_append, or_comm, ← h.located id]
      exact List.mem_append
    · have hopen : Grows s (s.openDecision actions) :=
        ⟨rfl, fun _ => ⟨rfl, rfl, [], (List.append_nil _).symm⟩, fun _ hid => hid⟩
      exact hopen.trans hgrows

end DecisionLoops

end Psrl
