import Mathlib.Data.List.Range
import Psrl.Lib.GroupField
import Psrl.Lib.Python
import Psrl.Lib.Run

/-!
# Psrl.Coordinator.Commands

The command protocol of the servers (`CommandExtension` in `psrl/utils/server/command.py`, with
the handler loops of the rollout coordinator and of the reward manager).

`exec_command` numbers a command, opens an entry for it in two maps and enqueues it; a blocking
caller then waits for the event of the command, and deletes both entries when it returns or
gives up. The handler loop takes the commands from the queue one by one and reports each
through `_complete_command`, which insists on finding the entry.

Callers and handler are interleaved from `await` to `await`. The two handler loops differ in
what they do with a command and in whether they report at all (`Handler`). `enqueued` and `executed`
record the history. The invariant (`Inv`) splits the history into what is executed, running and
queued, and says of each command what its entries and its caller look like.
-/

namespace Psrl

open Py

/-- What tells the handler loops apart. -/
structure Handler (Cmd Reply Result : Type) where
  /-- the loop calls `_complete_command` -/
  reports : Bool
  /-- an iteration up to the report, with what the remote calls it makes reply -/
  run : Cmd → Reply → Except PyError (Option Result)
  wellFormed : Cmd → Bool
  /-- the replies with which a command does not raise -/
  accepts : Cmd → Reply → Bool
  run_of_accepts : ∀ command reply, wellFormed command = true → accepts command reply = true →
    ∃ result, run command reply = .ok result
  exists_accepts : ∀ command, ∃ reply, accepts command reply = true

/-- The commands of the rollout coordinator, well formed. -/
inductive CoordinatorCommand
  | abort (instanceToUids : List ((String × Nat) × List Nat)) (instanceIds : List (String × Nat))
  | sleep (instanceIds : List (String × Nat))
  | wakeUp (instanceIds : List (String × Nat))
  deriving DecidableEq

/-- `CommandHandlerMixin._command_handler_loop`: an abortion answers the number of interrupted
requests, the other commands answer `None`. -/
def CoordinatorCommand.run : CoordinatorCommand → Nat → Except PyError (Option Nat)
  | .abort _ _, interrupted => .ok (some interrupted)
  | .sleep _, _ | .wakeUp _, _ => .ok none

def coordinatorHandler : Handler CoordinatorCommand Nat Nat where
  reports := true
  run := CoordinatorCommand.run
  wellFormed _ := true
  accepts _ _ := true
  run_of_accepts command _ _ _ := by cases command <;> exact ⟨_, rfl⟩
  exists_accepts _ := ⟨0, rfl⟩

/-- The arguments of an `ABORT` command of the reward manager: keys that may be missing, with values
that may be `None`. -/
structure RewardCommand where
  parentIds : Option (Option (GroupField Nat)) := none
  uids : Option (Option (GroupField Nat)) := none
  isValidate : Bool := false
  deriving DecidableEq

/-- What the reward manager meets during an abortion: the recorded children of the parents, how many
computations are pending, and for which requests `update_request_status` answers `True`. These are
the ones that are tracked and neither marked as aborted nor stale. -/
structure AbortReply where
  childUids : List Nat
  abortedCount : Nat
  updated : Nat → Bool

/-- `abort_request_uids`. -/
def RewardCommand.abortRequestUids (command : RewardCommand) (reply : AbortReply) : List Nat :=
  (if (command.parentIds.getD none).isSome then reply.childUids else []) ++
    (command.uids.getD none).elim [] GroupField.toList

/-- `RewardManager._command_event_handler`: the count of aborted computations is computed and
then only logged. -/
def RewardCommand.run (command : RewardCommand) (reply : AbortReply) :
    Except PyError (Option Nat) := do
  pyAssert (command.parentIds.isSome = true ∨ command.uids.isSome = true)
    "Abort command must contain either 'parent_ids' or 'uids' in args."
  pyAssert (command.isValidate = false) "Eval data should not be aborted in reward manager."
  if command.parentIds.getD none = none ∧ command.uids.getD none = none then
    throw (.valueError "Abort command must contain either 'parent_ids' or 'uids' in args.")
  pyAssert (∀ uid ∈ command.abortRequestUids reply, reply.updated uid = false)
    "Update status should not be successful for aborted requests."
  return some reply.abortedCount

def RewardCommand.wellFormed (command : RewardCommand) : Bool :=
  (command.parentIds.getD none ≠ none ∨ command.uids.getD none ≠ none) && !command.isValidate

theorem RewardCommand.run_ok {command : RewardCommand} {reply : AbortReply}
    (hformed : command.wellFormed = true)
    (haborted : ∀ uid ∈ command.abortRequestUids reply, reply.updated uid = false) :
    command.run reply = .ok (some reply.abortedCount) := by
  obtain ⟨parentIds, uids, isValidate⟩ := command
  simp only [wellFormed, Bool.and_eq_true, decide_eq_true_eq, Bool.not_eq_true'] at hformed
  obtain ⟨hsome, rfl⟩ := hformed
  have hkeys : parentIds.isSome = true ∨ uids.isSome = true := by
    cases parentIds <;> cases uids <;> simp_all
  rw [run, pyAssert_of hkeys, ok_bind, pyAssert_of rfl, ok_bind,
    if_neg fun hnone => hsome.elim (absurd hnone.1) (absurd hnone.2), pyAssert_of haborted]
  rfl

def rewardHandler : Handler RewardCommand AbortReply Nat where
  reports := false
  run := RewardCommand.run
  wellFormed := RewardCommand.wellFormed
  accepts command reply := ∀ uid ∈ command.abortRequestUids reply, reply.updated uid = false
  run_of_accepts _ _ hformed haccepts :=
    ⟨_, RewardCommand.run_ok hformed (of_decide_eq_true haccepts)⟩
  exists_accepts _ := ⟨⟨[], 0, fun _ => false⟩, by simp⟩

/-- Who issued a command, and what became of the call. -/
inductive CallerState (Result : Type)
  | unused
  /-- the call did not block -/
  | detached
  | waiting (hasTimeout : Bool)
  | returned (result : Option Result)
  | gaveUp
  deriving DecidableEq

inductive HandlerState (Cmd : Type)
  | idle
  | running (id : Nat) (command : Cmd)
  | stopped
  /-- a report raised, and the loop ended -/
  | crashed (error : PyError)
  /-- a command raised, and the loop ended -/
  | failed (id : Nat) (command : Cmd) (error : PyError)
  deriving DecidableEq

namespace HandlerState

variable {Cmd : Type}

/-- The loop has not ended with an exception. -/
@[simp] def IsAlive : HandlerState Cmd → Prop
  | crashed _ | failed _ _ _ => False
  | _ => True

/-- The command the loop is at, or ended at. -/
@[simp] def atHand : HandlerState Cmd → List (Nat × Cmd)
  | running id command | failed id command _ => [(id, command)]
  | _ => []

@[simp] def isRunning : HandlerState Cmd → Bool
  | running _ _ => true
  | _ => false

end HandlerState

structure CommandSystem (Cmd Result : Type) where
  commandCounter : Nat
  commandResults : Dict Nat (Option Result)
  commandEvents : Dict Nat Bool
  commandQueue : List (Nat × Cmd)
  stopCommandHandler : Bool
  handler : HandlerState Cmd
  caller : Nat → CallerState Result
  enqueued : List (Nat × Cmd)
  executed : List ((Nat × Cmd) × Option Result)

namespace CommandSystem

variable {Cmd Reply Result : Type}

def init : CommandSystem Cmd Result where
  commandCounter := 0
  commandResults := .empty
  commandEvents := .empty
  commandQueue := []
  stopCommandHandler := false
  handler := .idle
  caller _ := .unused
  enqueued := []
  executed := []

variable (h : Handler Cmd Reply Result) (w : CommandSystem Cmd Result)

/-- `exec_command` up to its first `await`; a call that does not block returns here. -/
def execCommand (command : Cmd) (hasTimeout blocking : Bool) : CommandSystem Cmd Result :=
  let id := w.commandCounter
  { w with
    commandCounter := id + 1
    commandEvents := w.commandEvents.set id false
    commandResults := w.commandResults.set id none
    commandQueue := w.commandQueue ++ [(id, command)]
    caller := Function.update w.caller id (if blocking then .waiting hasTimeout else .detached)
    enqueued := w.enqueued ++ [(id, command)] }

/-- The end of `exec_command`: the entries are deleted, whether or not the event was set. -/
def closeCall (id : Nat) (state : CallerState Result) : CommandSystem Cmd Result :=
  { w with
    commandResults := w.commandResults.erase id
    commandEvents := w.commandEvents.erase id
    caller := Function.update w.caller id state }

/-- `_complete_command`. -/
def completeCommand (id : Nat) (result : Option Result) :
    Except PyError (CommandSystem Cmd Result) :=
  match w.commandResults.get? id with
  | none => .error (.valueError s!"Command ID {id} not found in results.")
  | some _ => .ok { w with
      commandResults := w.commandResults.set id result
      commandEvents := match w.commandEvents.get? id with
        | none => w.commandEvents
        | some _ => w.commandEvents.set id true }

inductive Action (Cmd Reply : Type)
  | execCommand (command : Cmd) (hasTimeout blocking : Bool)
  /-- the loop takes the next command from the queue -/
  | takeCommand
  /-- the remote calls of the running command are over -/
  | finishCommand (reply : Reply)
  /-- a caller finds its event set -/
  | wake (id : Nat)
  /-- the timeout of a caller is over -/
  | giveUp (id : Nat)
  | stop
  | leaveLoop

/-- The command at hand, if any. -/
def running : List (Nat × Cmd) := w.handler.atHand

/-- When callers and handler take which step. -/
def Enabled : Action Cmd Reply → Prop
  | .execCommand _ _ _ => True
  | .takeCommand => w.handler = .idle ∧ w.stopCommandHandler = false ∧ w.commandQueue ≠ []
  | .finishCommand _ => w.handler.isRunning = true
  | .wake id => (w.caller id = .waiting true ∨ w.caller id = .waiting false) ∧
      w.commandEvents.get? id = some true
  | .giveUp id => w.caller id = .waiting true ∧ w.commandEvents.get? id ≠ some true
  | .stop => True
  | .leaveLoop => w.handler = .idle ∧ w.stopCommandHandler = true

instance [DecidableEq Cmd] [DecidableEq Result]
    (a : Action Cmd Reply) : Decidable (w.Enabled a) := by
  cases a <;> unfold Enabled <;> infer_instance

/-- The end of an iteration of the handler loop. An exception ends the loop. -/
def report (id : Nat) (result : Option Result) : CommandSystem Cmd Result :=
  if h.reports then
    match w.completeCommand id result with
    | .ok w' => { w' with handler := .idle }
    | .error e => { w with handler := .crashed e }
  else { w with handler := .idle }

def exec : Action Cmd Reply → Except PyError (CommandSystem Cmd Result)
  | .execCommand command hasTimeout blocking => .ok (w.execCommand command hasTimeout blocking)
  | .takeCommand =>
      match w.commandQueue with
      | [] => .ok w
      | (id, command) :: queue =>
          .ok { w with commandQueue := queue, handler := .running id command }
  | .finishCommand reply =>
      match w.handler with
      | .running id command =>
          match h.run command reply with
          | .ok result =>
              .ok { w.report h id result with executed := w.executed ++ [((id, command), result)] }
          | .error e => .ok { w with handler := .failed id command e }
      | _ => .ok w
  | .wake id => .ok (w.closeCall id (.returned ((w.commandResults.get? id).getD none)))
  | .giveUp id => .ok (w.closeCall id .gaveUp)
  | .stop => .ok { w with stopCommandHandler := true }
  | .leaveLoop => .ok { w with handler := .stopped }

/-- The commands are well formed, and what they meet does not make them raise; no caller gives up on
a command that is to be reported, and nobody waits for a handler that does not report. -/
def Patient : Action Cmd Reply → Prop
  | .execCommand command _ blocking => h.wellFormed command = true ∧
      (blocking = true → h.reports = true)
  | .finishCommand reply => ∀ entry ∈ w.running, h.accepts entry.2 reply = true
  | .giveUp _ => w.handler = .stopped
  | _ => True

instance [DecidableEq Cmd] (a : Action Cmd Reply) : Decidable (w.Patient h a) := by
  cases a <;> unfold Patient <;> infer_instance

/-! ### The invariant -/

section Invariant

variable {h : Handler Cmd Reply Result} {w w' : CommandSystem Cmd Result}

/-- The commands that are still to be executed. -/
def left (w : CommandSystem Cmd Result) : List (Nat × Cmd) := w.running ++ w.commandQueue

/-- What holds in every run, whatever the callers do. -/
structure History (h : Handler Cmd Reply Result) (w : CommandSystem Cmd Result) : Prop where
  numbered : w.enqueued.map Prod.fst = List.range w.commandCounter
  fifo : w.enqueued = w.executed.map Prod.fst ++ w.left
  answered : ∀ entry ∈ w.executed, ∃ reply, h.run entry.1.2 reply = .ok entry.2
  reported : ∀ id, w.commandEvents.get? id = some true →
    ∃ command, ((id, command), (w.commandResults.get? id).getD none) ∈ w.executed
  returned : ∀ id result, w.caller id = .returned result →
    ∃ command, ((id, command), result) ∈ w.executed

theorem History.init : History h (init : CommandSystem Cmd Result) := by
  constructor <;> simp [CommandSystem.init, left, running]

section

variable {id : Nat} (hist : History h w)

include hist

/-- The numbers of the executed and of the remaining commands are the numbers given out. -/
theorem History.ids : w.executed.map (fun entry => entry.1.1) ++
    w.left.map Prod.fst = List.range w.commandCounter := by
  rw [← hist.numbered, hist.fifo]
  simp [Function.comp_def]

theorem History.lt_of_left {entry : Nat × Cmd} (hmem : entry ∈ w.left) :
    entry.1 < w.commandCounter := by
  have hid : entry.1 ∈ List.range w.commandCounter := by
    rw [← hist.ids]
    exact List.mem_append_right _ (List.mem_map_of_mem hmem)
  exact List.mem_range.mp hid

theorem History.lt_of_executed {entry : (Nat × Cmd) × Option Result}
    (hmem : entry ∈ w.executed) : entry.1.1 < w.commandCounter := by
  have hid : entry.1.1 ∈ List.range w.commandCounter := by
    rw [← hist.ids]
    exact List.mem_append_left _ (List.mem_map_of_mem hmem)
  exact List.mem_range.mp hid

/-- Every number given out belongs to an executed or to a remaining command. -/
theorem History.executed_or_left (hid : id < w.commandCounter) :
    (∃ entry ∈ w.executed, entry.1.1 = id) ∨ ∃ entry ∈ w.left, entry.1 = id := by
  have hmem := List.mem_range.mpr hid
  rw [← hist.ids, List.mem_append, List.mem_map, List.mem_map] at hmem
  exact hmem

theorem History.ne_of_executed_left {entry : (Nat × Cmd) × Option Result}
    {entry' : Nat × Cmd} (hmem : entry ∈ w.executed) (hmem' : entry' ∈ w.left) :
    entry.1.1 ≠ entry'.1 := by
  have hnodup := List.nodup_range (n := w.commandCounter)
  rw [← hist.ids] at hnodup
  exact (List.nodup_append.mp hnodup).2.2 _ (List.mem_map_of_mem hmem) _ (List.mem_map_of_mem hmem')

/-- A number stands for one command. -/
theorem History.command_unique {command command' : Cmd}
    (hmem : (id, command) ∈ w.enqueued) (hmem' : (id, command') ∈ w.enqueued) :
    command = command' := by
  have hnodup : (w.enqueued.map Prod.fst).Nodup := by
    rw [hist.numbered]
    exact List.nodup_range
  exact congrArg Prod.snd (List.inj_on_of_nodup_map hnodup hmem hmem' rfl)

theorem History.execCommand (command : Cmd) (hasTimeout blocking : Bool) :
    History h (w.execCommand command hasTimeout blocking) where
  numbered := by simp [CommandSystem.execCommand, hist.numbered, List.range_succ]
  fifo := by simp [CommandSystem.execCommand, left, running, hist.fifo]
  answered := hist.answered
  reported id hevent := by
    simp only [CommandSystem.execCommand, Dict.get?_set] at hevent ⊢
    split at hevent
    · cases hevent
    · rename_i hne
      simpa [hne] using hist.reported id hevent
  returned id result hcaller := by
    simp only [CommandSystem.execCommand, Function.update_apply] at hcaller
    split at hcaller
    · split at hcaller <;> cases hcaller
    · exact hist.returned id result hcaller

theorem History.closeCall (id : Nat) {state : CallerState Result}
    (hstate : ∀ result, state = .returned result →
      ∃ command, ((id, command), result) ∈ w.executed) : History h (w.closeCall id state) := by
  refine { hist with reported := ?_, returned := ?_ }
  · intro id' hevent
    simp only [CommandSystem.closeCall, Dict.get?_erase] at hevent ⊢
    split at hevent
    · cases hevent
    · rename_i hne
      simpa [hne] using hist.reported id' hevent
  · intro id' result hcaller
    simp only [CommandSystem.closeCall, Function.update_apply] at hcaller
    split at hcaller
    · rename_i heq
      rw [heq]
      exact hstate result hcaller
    · exact hist.returned id' result hcaller

theorem History.takeCommand {command : Cmd} {queue : List (Nat × Cmd)} (hidle : w.handler = .idle)
    (hqueue : w.commandQueue = (id, command) :: queue) :
    History h { w with commandQueue := queue, handler := .running id command } :=
  { hist with fifo := by rw [hist.fifo]; simp [left, running, hidle, hqueue] }

end

/-- A report changes the entries of its command only, and the loop is not running it any more. -/
theorem report_cases (h : Handler Cmd Reply Result) (w : CommandSystem Cmd Result) (id : Nat)
    (result : Option Result) :
    ∃ results events state, w.report h id result = { w with
        commandResults := results
        commandEvents := events
        handler := state } ∧ state.atHand = [] ∧
      ∀ id', events.get? id' = some true →
        (w.commandEvents.get? id' = some true ∧ results.get? id' = w.commandResults.get? id') ∨
          id' = id ∧ results.get? id' = some result := by
  unfold report completeCommand
  split
  · cases hold : w.commandResults.get? id with
    | none => exact ⟨_, _, _, rfl, rfl, fun _ hevent => .inl ⟨hevent, rfl⟩⟩
    | some old =>
        refine ⟨_, _, _, rfl, rfl, fun id' hevent => ?_⟩
        by_cases heq : id' = id
        · subst heq
          exact .inr ⟨rfl, by simp⟩
        · refine .inl ⟨?_, by simp [Dict.get?_set, heq]⟩
          cases hold' : w.commandEvents.get? id with
          | none => simpa [hold'] using hevent
          | some event => simpa [hold', Dict.get?_set, heq] using hevent
  · exact ⟨_, _, _, rfl, rfl, fun _ hevent => .inl ⟨hevent, rfl⟩⟩

theorem History.finishCommand (hist : History h w) {result : Option Result} {id : Nat}
    {command : Cmd} {reply : Reply} (hrunning : w.handler = .running id command)
    (hrun : h.run command reply = .ok result) :
    History h { w.report h id result with
      executed := w.executed ++ [((id, command), result)] } := by
  obtain ⟨results, events, state, hreport, hstate, hevents⟩ := report_cases h w id result
  rw [hreport]
  refine { hist with fifo := ?_, answered := ?_, reported := ?_, returned := ?_ }
  · show w.enqueued = _ ++ (state.atHand ++ w.commandQueue)
    rw [hist.fifo, hstate]
    simp [left, running, hrunning]
  · intro entry hmem
    rcases List.mem_append.mp hmem with hmem | hmem
    · exact hist.answered entry hmem
    · obtain rfl := List.mem_singleton.mp hmem
      exact ⟨reply, hrun⟩
  · intro id' hevent
    rcases hevents id' hevent with ⟨hold, hsame⟩ | ⟨rfl, hnew⟩
    · obtain ⟨command', hmem⟩ := hist.reported id' hold
      refine ⟨command', List.mem_append_left _ ?_⟩
      rw [hsame]
      exact hmem
    · exact ⟨command, by simp [hnew]⟩
  · intro id' result' hcaller
    obtain ⟨command', hmem⟩ := hist.returned id' result' hcaller
    exact ⟨command', List.mem_append_left _ hmem⟩

theorem History.exec (hist : History h w) {a : Action Cmd Reply} (henabled : w.Enabled a)
    (hexec : w.exec h a = .ok w') : History h w' := by
  cases a with
  | execCommand command hasTimeout blocking => cases hexec; exact hist.execCommand _ _ _
  | takeCommand =>
      obtain ⟨hidle, -, -⟩ := henabled
      cases hqueue : w.commandQueue with
      | nil =>
          simp only [CommandSystem.exec, hqueue] at hexec
          cases hexec
          exact hist
      | cons entry queue =>
          simp only [CommandSystem.exec, hqueue] at hexec
          cases hexec
          exact hist.takeCommand hidle hqueue
  | finishCommand reply =>
      cases hrunning : w.handler with
      | running id command =>
          simp only [CommandSystem.exec, hrunning] at hexec
          split at hexec <;> rename_i hrun <;> cases hexec
          · exact hist.finishCommand hrunning hrun
          · exact { hist with fifo := by rw [hist.fifo]; simp [left, running, hrunning] }
      | _ => simp [Enabled, hrunning] at henabled
  | wake id =>
      cases hexec
      refine hist.closeCall id fun result heq => ?_
      cases heq
      exact hist.reported id henabled.2
  | giveUp id => cases hexec; exact hist.closeCall id nofun
  | stop => cases hexec; exact { hist with }
  | leaveLoop =>
      cases hexec
      exact { hist with fifo := by rw [hist.fifo]; simp [left, running, henabled.1] }

/-- A command that is not executed: nobody has its result, and until the loop is left its
entries are in place for the report. -/
structure Open (h : Handler Cmd Reply Result) (w : CommandSystem Cmd Result) (id : Nat) : Prop where
  unset : w.commandEvents.get? id ≠ some true
  unanswered : ∀ result, w.caller id ≠ .returned result
  entered : w.handler ≠ .stopped → w.commandEvents.get? id = some false ∧
    (w.commandResults.get? id).isSome ∧
    (w.caller id = .detached ∨ h.reports = true ∧ ∃ timeout, w.caller id = .waiting timeout)

/-- An executed command: its caller has the result, or finds it. -/
def Served (w : CommandSystem Cmd Result) (id : Nat) (result : Option Result) : Prop :=
  match w.caller id with
  | .detached => True
  | .waiting _ => w.commandEvents.get? id = some true ∧ w.commandResults.get? id = some result
  | .returned result' => result' = result
  | .unused | .gaveUp => False

/-- What holds as long as the callers are patient. -/
structure Inv (h : Handler Cmd Reply Result) (w : CommandSystem Cmd Result) : Prop
    extends History h w where
  alive : w.handler.IsAlive
  stopped : w.handler = .stopped → w.stopCommandHandler = true
  fresh : ∀ id, w.commandCounter ≤ id → w.caller id = .unused
  formed : ∀ entry ∈ w.left, h.wellFormed entry.2 = true
  opened : ∀ entry ∈ w.left, Open h w entry.1
  served : ∀ entry ∈ w.executed, Served w entry.1.1 entry.2

theorem Inv.init : Inv h (init : CommandSystem Cmd Result) :=
  { History.init with
    alive := by simp [CommandSystem.init]
    stopped := by simp [CommandSystem.init]
    fresh := by simp [CommandSystem.init]
    formed := by simp [CommandSystem.init, left, running]
    opened := by simp [CommandSystem.init, left, running]
    served := by simp [CommandSystem.init] }

/-- The caller that waits for a command has its number. -/
theorem Inv.lt_of_waiting (hinv : Inv h w) {id : Nat} {timeout : Bool}
    (hwaiting : w.caller id = .waiting timeout) : id < w.commandCounter := by
  by_contra hge
  rw [hinv.fresh id (by omega)] at hwaiting
  cases hwaiting

/-- A command whose entries and caller are untouched stays open. -/
theorem Open.congr {id : Nat} (hopen : Open h w id)
    (hevents : w'.commandEvents.get? id = w.commandEvents.get? id)
    (hresults : w'.commandResults.get? id = w.commandResults.get? id)
    (hcaller : w'.caller id = w.caller id)
    (hhandler : w'.handler ≠ .stopped → w.handler ≠ .stopped) : Open h w' id where
  unset := by rw [hevents]; exact hopen.unset
  unanswered := by rw [hcaller]; exact hopen.unanswered
  entered hlive := by
    rw [hevents, hresults, hcaller]
    exact hopen.entered (hhandler hlive)

theorem Served.congr {id : Nat} {result : Option Result} (hserved : Served w id result)
    (hevents : w'.commandEvents.get? id = w.commandEvents.get? id)
    (hresults : w'.commandResults.get? id = w.commandResults.get? id)
    (hcaller : w'.caller id = w.caller id) : Served w' id result := by
  unfold Served
  rw [hevents, hresults, hcaller]
  exact hserved

theorem Inv.execCommand (hinv : Inv h w) {command : Cmd} {hasTimeout blocking : Bool}
    (hformed : h.wellFormed command = true) (hblocking : blocking = true → h.reports = true) :
    Inv h (w.execCommand command hasTimeout blocking) := by
  have hleft : (w.execCommand command hasTimeout blocking).left =
      w.left ++ [(w.commandCounter, command)] := by
    simp [CommandSystem.execCommand, left, running]
  have hframe : ∀ id, id < w.commandCounter →
      (w.execCommand command hasTimeout blocking).commandEvents.get? id =
        w.commandEvents.get? id ∧
      (w.execCommand command hasTimeout blocking).commandResults.get? id =
        w.commandResults.get? id ∧
      (w.execCommand command hasTimeout blocking).caller id = w.caller id := by
    intro id hid
    have hne : id ≠ w.commandCounter := by omega
    simp [CommandSystem.execCommand, Dict.get?_set, hne]
  refine { hinv.toHistory.execCommand command hasTimeout blocking with
    alive := hinv.alive, stopped := hinv.stopped, fresh := ?_, formed := ?_, opened := ?_,
    served := ?_ }
  case refine_1 =>
    intro id hid
    have hne : id ≠ w.commandCounter := by
      simp only [CommandSystem.execCommand] at hid
      omega
    have hge : w.commandCounter ≤ id := by
      simp only [CommandSystem.execCommand] at hid
      omega
    simp [CommandSystem.execCommand, hne, hinv.fresh id hge]
  case refine_2 =>
    intro entry hmem
    rw [hleft, List.mem_append, List.mem_singleton] at hmem
    rcases hmem with hmem | rfl
    · exact hinv.formed entry hmem
    · exact hformed
  case refine_3 =>
    intro entry hmem
    rw [hleft, List.mem_append, List.mem_singleton] at hmem
    rcases hmem with hmem | rfl
    · obtain ⟨hevents, hresults, hcaller⟩ := hframe entry.1 (hinv.lt_of_left hmem)
      exact (hinv.opened entry hmem).congr hevents hresults hcaller id
    · constructor
      · simp [CommandSystem.execCommand]
      · cases blocking <;> simp [CommandSystem.execCommand]
      · cases blocking <;> simp_all [CommandSystem.execCommand]
  case refine_4 =>
    intro entry hmem
    obtain ⟨hevents, hresults, hcaller⟩ := hframe entry.1.1 (hinv.lt_of_executed hmem)
    exact (hinv.served entry hmem).congr hevents hresults hcaller

/-- The end of a call touches the entries of its own command only. -/
theorem closeCall_frame {id id' : Nat} (hne : id' ≠ id) (state : CallerState Result) :
    (w.closeCall id state).commandEvents.get? id' = w.commandEvents.get? id' ∧
    (w.closeCall id state).commandResults.get? id' = w.commandResults.get? id' ∧
    (w.closeCall id state).caller id' = w.caller id' := by
  simp [closeCall, Dict.get?_erase, hne]

section

variable {id : Nat} {command : Cmd} (hinv : Inv h w)

include hinv

theorem Inv.closeCall {state : CallerState Result} (hcounter : id < w.commandCounter)
    (hopen : ∀ entry ∈ w.left, entry.1 = id →
      w.handler = .stopped ∧ ∀ result, state ≠ .returned result)
    (hserved : ∀ entry ∈ w.executed, entry.1.1 = id → state = .returned entry.2) :
    Inv h (w.closeCall id state) := by
  have hstate : ∀ result, state = .returned result →
      ∃ command, ((id, command), result) ∈ w.executed := by
    intro result heq
    rcases hinv.executed_or_left hcounter with ⟨entry, hmem, hid⟩ | ⟨entry, hmem, hid⟩
    · have hresult := hserved entry hmem hid
      rw [heq] at hresult
      cases hresult
      exact ⟨entry.1.2, hid ▸ hmem⟩
    · exact absurd heq ((hopen entry hmem hid).2 result)
  refine { hinv.toHistory.closeCall id hstate with
    alive := hinv.alive, stopped := hinv.stopped, fresh := ?_, formed := hinv.formed, opened := ?_,
    served := ?_ }
  · intro id' hid'
    have hge : w.commandCounter ≤ id' := hid'
    rw [(closeCall_frame (show id' ≠ id by omega) state).2.2]
    exact hinv.fresh id' hge
  · intro entry hmem
    by_cases hid : entry.1 = id
    · obtain ⟨hstopped, hunanswered⟩ := hopen entry hmem hid
      subst hid
      exact ⟨by simp [CommandSystem.closeCall],
        by simpa [CommandSystem.closeCall] using hunanswered, fun hlive => absurd hstopped hlive⟩
    · obtain ⟨hevents, hresults, hcaller⟩ := closeCall_frame hid state
      exact (hinv.opened entry hmem).congr hevents hresults hcaller fun hlive => hlive
  · intro entry hmem
    by_cases hid : entry.1.1 = id
    · rw [hserved entry hmem hid, ← hid]
      simp [Served, CommandSystem.closeCall]
    · obtain ⟨hevents, hresults, hcaller⟩ := closeCall_frame hid state
      exact (hinv.served entry hmem).congr hevents hresults hcaller

theorem Inv.wake {timeout : Bool} (hwaiting : w.caller id = .waiting timeout)
    (hevent : w.commandEvents.get? id = some true) :
    Inv h (w.closeCall id (.returned ((w.commandResults.get? id).getD none))) := by
  refine hinv.closeCall (hinv.lt_of_waiting hwaiting) (fun entry hmem hid => ?_)
    fun entry hmem hid => ?_
  · exact absurd (hid ▸ hevent) (hinv.opened entry hmem).unset
  · have hserved := hinv.served entry hmem
    rw [hid] at hserved
    simp only [Served, hwaiting] at hserved
    simp [hserved.2]

theorem Inv.giveUp (hwaiting : w.caller id = .waiting true)
    (hevent : w.commandEvents.get? id ≠ some true) (hstopped : w.handler = .stopped) :
    Inv h (w.closeCall id .gaveUp) := by
  refine hinv.closeCall (hinv.lt_of_waiting hwaiting) (fun _ _ _ => ⟨hstopped, by simp⟩)
    fun entry hmem hid => ?_
  have hserved := hinv.served entry hmem
  rw [hid] at hserved
  simp only [Served, hwaiting] at hserved
  exact absurd hserved.1 hevent

theorem Inv.takeCommand {queue : List (Nat × Cmd)} (hidle : w.handler = .idle)
    (hqueue : w.commandQueue = (id, command) :: queue) :
    Inv h { w with commandQueue := queue, handler := .running id command } := by
  have hleft : left { w with commandQueue := queue, handler := .running id command } = w.left := by
    simp [left, running, hidle, hqueue]
  refine { hinv.toHistory.takeCommand hidle hqueue with
    alive := by simp, stopped := by simp, fresh := hinv.fresh, formed := hleft ▸ hinv.formed,
    opened := ?_, served := hinv.served }
  intro entry hmem
  rw [hleft] at hmem
  exact (hinv.opened entry hmem).congr rfl rfl rfl fun _ => by simp [hidle]

/-- The entry of a running command is in place, so its report is accepted. -/
theorem Inv.completeCommand {result : Option Result} (hrunning : w.handler = .running id command) :
    w.completeCommand id result = .ok { w with
      commandResults := w.commandResults.set id result
      commandEvents := w.commandEvents.set id true } := by
  have hmem : (id, command) ∈ w.left := by simp [left, running, hrunning]
  obtain ⟨hevent, hresult, -⟩ := (hinv.opened _ hmem).entered (by simp [hrunning])
  obtain ⟨old, hold⟩ := Option.isSome_iff_exists.mp hresult
  simp [CommandSystem.completeCommand, hold, hevent]

/-- The running command moves to the executed ones. -/
theorem Inv.finish {result : Option Result} {events : Dict Nat Bool}
    {results : Dict Nat (Option Result)}
    (hrunning : w.handler = .running id command)
    (hframe : ∀ id', id' ≠ id → events.get? id' = w.commandEvents.get? id' ∧
      results.get? id' = w.commandResults.get? id')
    (hreport : h.reports = true → events.get? id = some true ∧ results.get? id = some result)
    (hist : History h { w with
      commandEvents := events
      commandResults := results
      executed := w.executed ++ [((id, command), result)]
      handler := .idle }) :
    Inv h { w with
      commandEvents := events
      commandResults := results
      executed := w.executed ++ [((id, command), result)]
      handler := .idle } := by
  have hleft : w.left = (id, command) :: w.commandQueue := by simp [left, running, hrunning]
  have hcaller := ((hinv.opened (id, command) (by simp [hleft])).entered (by simp [hrunning])).2.2
  have hne : ∀ entry ∈ w.commandQueue, entry.1 ≠ id := by
    have hnodup := List.nodup_range (n := w.commandCounter)
    rw [← hinv.ids, hleft, List.map_cons] at hnodup
    intro entry hmem heq
    exact (List.nodup_cons.mp (List.nodup_append.mp hnodup).2.1).1
      (List.mem_map.mpr ⟨entry, hmem, heq⟩)
  refine { hist with
    alive := by simp, stopped := by simp, fresh := hinv.fresh, formed := ?_, opened := ?_,
    served := ?_ }
  · intro entry hmem
    have hqueue : entry ∈ w.commandQueue := by simpa [left, running] using hmem
    exact hinv.formed entry (by rw [hleft]; exact List.mem_cons_of_mem _ hqueue)
  · intro entry hmem
    have hqueue : entry ∈ w.commandQueue := by simpa [left, running] using hmem
    have hopen := hinv.opened entry (by rw [hleft]; exact List.mem_cons_of_mem _ hqueue)
    obtain ⟨hevents, hresults⟩ := hframe entry.1 (hne entry hqueue)
    exact hopen.congr hevents hresults rfl fun _ => by simp [hrunning]
  · intro entry hmem
    rcases List.mem_append.mp hmem with hmem | hmem
    · have hdistinct : entry.1.1 ≠ id :=
        hinv.ne_of_executed_left hmem (show (id, command) ∈ w.left by simp [hleft])
      obtain ⟨hevents, hresults⟩ := hframe entry.1.1 hdistinct
      exact (hinv.served entry hmem).congr hevents hresults rfl
    · obtain rfl := List.mem_singleton.mp hmem
      rcases hcaller with hdetached | ⟨hreports, timeout, hwaiting⟩
      · simp [Served, hdetached]
      · simp [Served, hwaiting, hreport hreports]

theorem Inv.finishCommand {result : Option Result} {reply : Reply}
    (hrunning : w.handler = .running id command)
    (hrun : h.run command reply = .ok result) :
    Inv h { w.report h id result with executed := w.executed ++ [((id, command), result)] } := by
  have hist := hinv.toHistory.finishCommand hrunning hrun
  by_cases hreports : h.reports = true
  · have heq : w.report h id result = { w with
        commandResults := w.commandResults.set id result
        commandEvents := w.commandEvents.set id true
        handler := .idle } := by
      simp [report, hreports, hinv.completeCommand hrunning]
    rw [heq] at hist ⊢
    refine hinv.finish hrunning (fun id' hne => ?_) (fun _ => ?_) hist
    · simp [Dict.get?_set, hne]
    · simp
  · have heq : w.report h id result = { w with handler := .idle } := by simp [report, hreports]
    rw [heq] at hist ⊢
    exact hinv.finish hrunning (fun _ _ => ⟨rfl, rfl⟩) (fun htrue => absurd htrue hreports) hist

/-- A command that was accepted does not raise. -/
theorem Inv.run_ok {reply : Reply} (hrunning : w.handler = .running id command)
    (haccepts : h.accepts command reply = true) :
    ∃ result, h.run command reply = .ok result :=
  h.run_of_accepts command reply
    (hinv.formed (id, command) (by simp [left, running, hrunning])) haccepts

theorem Inv.exec {a : Action Cmd Reply} (henabled : w.Enabled a)
    (hpatient : w.Patient h a) (hexec : w.exec h a = .ok w') : Inv h w' := by
  cases a with
  | execCommand command hasTimeout blocking =>
      cases hexec
      exact hinv.execCommand hpatient.1 hpatient.2
  | takeCommand =>
      obtain ⟨hidle, -, -⟩ := henabled
      cases hqueue : w.commandQueue with
      | nil =>
          simp only [CommandSystem.exec, hqueue] at hexec
          cases hexec
          exact hinv
      | cons entry queue =>
          simp only [CommandSystem.exec, hqueue] at hexec
          cases hexec
          exact hinv.takeCommand hidle hqueue
  | finishCommand reply =>
      cases hrunning : w.handler with
      | running id command =>
          obtain ⟨result, hrun⟩ :=
            hinv.run_ok hrunning (hpatient (id, command) (by simp [running, hrunning]))
          simp only [CommandSystem.exec, hrunning, hrun] at hexec
          cases hexec
          exact hinv.finishCommand hrunning hrun
      | _ => simp [Enabled, hrunning] at henabled
  | wake id =>
      obtain ⟨hwaiting | hwaiting, hevent⟩ := henabled
      all_goals
        cases hexec
        exact hinv.wake hwaiting hevent
  | giveUp id =>
      cases hexec
      exact hinv.giveUp henabled.1 henabled.2 hpatient
  | stop =>
      cases hexec
      refine { hinv with stopped := fun _ => rfl, opened := fun entry hmem => ?_ }
      exact (hinv.opened entry hmem).congr rfl rfl rfl fun hlive => hlive
  | leaveLoop =>
      cases hexec
      obtain ⟨hidle, hstop⟩ := henabled
      have hleft : left { w with handler := .stopped } = w.left := by simp [left, running, hidle]
      refine { hinv with
        fifo := ?_, alive := trivial, stopped := fun _ => hstop, formed := ?_, opened := ?_ }
      · rw [hleft]
        exact hinv.fifo
      · rw [hleft]
        exact hinv.formed
      · intro entry hmem
        rw [hleft] at hmem
        have hopen := hinv.opened entry hmem
        exact ⟨hopen.unset, hopen.unanswered, fun hlive => absurd rfl hlive⟩

end

end Invariant

/-! ### Runs -/

section Runs

variable {h : Handler Cmd Reply Result} {w w' : CommandSystem Cmd Result}

/-- The steps of the handler loop. -/
def IsHandlerStep : Action Cmd Reply → Prop
  | .takeCommand | .finishCommand _ => True
  | _ => False

/-- What the handler loop alone reaches from a state. -/
def HandlerRun (h : Handler Cmd Reply Result) :
    CommandSystem Cmd Result → CommandSystem Cmd Result → Prop :=
  Run.Reachable (exec h) fun w a => w.Enabled a ∧ w.Patient h a ∧ IsHandlerStep a

/-- The handler loop can finish the running command. -/
theorem Inv.handlerRun_running (hinv : Inv h w) {id : Nat} {command : Cmd}
    (hrunning : w.handler = .running id command) :
    ∃ w', HandlerRun h w w' ∧ Inv h w' ∧ w'.handler = .idle ∧
      w'.commandQueue = w.commandQueue ∧ w'.enqueued = w.enqueued ∧
      w'.stopCommandHandler = w.stopCommandHandler := by
  obtain ⟨reply, haccepts⟩ := h.exists_accepts command
  obtain ⟨result, hrun⟩ := hinv.run_ok hrunning haccepts
  have hexec : w.exec h (.finishCommand reply) = .ok { w.report h id result with
      executed := w.executed ++ [((id, command), result)] } := by
    simp only [CommandSystem.exec, hrunning, hrun]
  have henabled : w.Enabled (.finishCommand reply) := by simp [Enabled, hrunning]
  have hpatient : w.Patient h (.finishCommand reply) := by
    simpa [Patient, running, hrunning] using haccepts
  refine ⟨_, .step .start ⟨henabled, hpatient, trivial⟩ hexec,
    hinv.finishCommand hrunning hrun, ?_⟩
  unfold report
  split
  · rw [hinv.completeCommand hrunning]
    exact ⟨rfl, rfl, rfl, rfl⟩
  · exact ⟨rfl, rfl, rfl, rfl⟩

theorem HandlerRun.trans {w1 w2 w3 : CommandSystem Cmd Result} (h12 : HandlerRun h w1 w2)
    (h23 : HandlerRun h w2 w3) : HandlerRun h w1 w3 := by
  induction h23 with
  | start => exact h12
  | step _ hallowed hexec ih => exact ih.step hallowed hexec

/-- From an idle state, by induction on the queue. -/
theorem Inv.drain_idle (hinv : Inv h w) (hidle : w.handler = .idle)
    (hstop : w.stopCommandHandler = false) :
    ∃ w', HandlerRun h w w' ∧ w'.enqueued = w.enqueued ∧
      w'.executed.map Prod.fst = w'.enqueued := by
  induction hqueue : w.commandQueue generalizing w with
  | nil =>
      refine ⟨w, .start, rfl, ?_⟩
      rw [hinv.fifo]
      simp [left, running, hidle, hqueue]
  | cons entry queue ih =>
      obtain ⟨id, command⟩ := entry
      have htake := hinv.takeCommand hidle hqueue
      have henabled : w.Enabled (Action.takeCommand : Action Cmd Reply) :=
        ⟨hidle, hstop, by simp [hqueue]⟩
      have hexec : w.exec h .takeCommand =
          .ok { w with commandQueue := queue, handler := .running id command } := by
        simp only [CommandSystem.exec, hqueue]
      have hstep :
          HandlerRun h w { w with commandQueue := queue, handler := .running id command } :=
        .step .start ⟨henabled, trivial, trivial⟩ hexec
      obtain ⟨w1, hrun1, hinv1, hidle1, hqueue1, henqueued1, hstop1⟩ :=
        htake.handlerRun_running rfl
      obtain ⟨w2, hrun2, henqueued2, hexecuted⟩ := ih hinv1 hidle1 (hstop1.trans hstop) hqueue1
      exact ⟨w2, (hstep.trans hrun1).trans hrun2, henqueued2.trans henqueued1, hexecuted⟩

/-- Until it is told to stop, the handler loop executes all the commands that are left. -/
theorem Inv.drain (hinv : Inv h w) (hstop : w.stopCommandHandler = false) :
    ∃ w', HandlerRun h w w' ∧ w'.enqueued = w.enqueued ∧
      w'.executed.map Prod.fst = w'.enqueued := by
  cases hhandler : w.handler with
  | idle => exact hinv.drain_idle hhandler hstop
  | running id command =>
      obtain ⟨w1, hrun1, hinv1, hidle1, -, henqueued1, hstop1⟩ := hinv.handlerRun_running hhandler
      obtain ⟨w2, hrun2, henqueued2, hexecuted⟩ := hinv1.drain_idle hidle1 (hstop1.trans hstop)
      exact ⟨w2, hrun1.trans hrun2, henqueued2.trans henqueued1, hexecuted⟩
  | stopped => simp [hinv.stopped hhandler] at hstop
  | crashed e | failed id command e => simpa [hhandler] using hinv.alive

/-- **The command protocol.** In every run in which the commands are well formed and do not raise,
no caller gives up on a handler that reports, and nobody waits for a handler that does not: the
commands are numbered and executed in the order of the calls, each once; the handler loop is alive
until it is told to stop, and by its own steps executes everything that was enqueued; a caller that
has returned has the result of its own command, and a caller whose command is executed gets it. -/
theorem command_protocol
    (hreach : Run.Reachable (exec h) (fun w a => w.Enabled a ∧ w.Patient h a) init w) :
    (w.enqueued.map Prod.fst = List.range w.commandCounter ∧
      w.enqueued = w.executed.map Prod.fst ++ w.running ++ w.commandQueue) ∧
    (w.stopCommandHandler = false →
      (w.handler = .idle ∨ ∃ id command, w.handler = .running id command) ∧
      ∃ w', HandlerRun h w w' ∧ w'.enqueued = w.enqueued ∧
        w'.executed.map Prod.fst = w'.enqueued) ∧
    (∀ id result, w.caller id = .returned result →
      ∃ command, ((id, command), result) ∈ w.executed) ∧
    ∀ id timeout command result, w.caller id = .waiting timeout →
      ((id, command), result) ∈ w.executed →
      w.Enabled (.wake id : Action Cmd Reply) ∧ ∃ w', w.exec h (.wake id) = .ok w' ∧
        w'.caller id = .returned result := by
  have hinv : Inv h w := hreach.invariant Inv.init fun w a w' hinv hallowed hexec =>
    hinv.exec hallowed.1 hallowed.2 hexec
  refine ⟨⟨hinv.numbered, ?_⟩, fun hstop => ⟨?_, hinv.drain hstop⟩, hinv.returned, ?_⟩
  · rw [hinv.fifo, left, List.append_assoc]
  · cases hhandler : w.handler with
    | idle => exact .inl rfl
    | running id command => exact .inr ⟨id, command, rfl⟩
    | stopped => simp [hinv.stopped hhandler] at hstop
    | crashed e | failed id command e => simpa [hhandler] using hinv.alive
  · intro id timeout command result hwaiting hmem
    have hserved := hinv.served _ hmem
    simp only [Served, hwaiting] at hserved
    refine ⟨⟨?_, hserved.1⟩, _, rfl, by simp [closeCall, hserved.2]⟩
    cases timeout
    · exact .inr hwaiting
    · exact .inl hwaiting

/-- An abortion and a sleep command, both awaited. -/
theorem command_protocol_two_commands :
    ∃ w : CommandSystem CoordinatorCommand Nat,
      Run.Reachable (exec coordinatorHandler)
        (fun w a => w.Enabled a ∧ w.Patient coordinatorHandler a) init w ∧
      w.caller 0 = .returned (some 3) ∧ ∃ w', w.exec coordinatorHandler (.wake 1) = .ok w' ∧
        w'.caller 1 = .returned none := by
  obtain ⟨w, hreach, hw⟩ : ∃ w : CommandSystem CoordinatorCommand Nat,
      Run.Reachable (exec coordinatorHandler)
        (fun w a => w.Enabled a ∧ w.Patient coordinatorHandler a) init w ∧
      decide (w.caller 0 = .returned (some 3) ∧ w.caller 1 = .waiting true ∧
        ((1, .sleep []), none) ∈ w.executed) = true :=
    Run.exists_reachable_of_perform (l := [.execCommand (.abort [] []) false true,
      .execCommand (.sleep []) true true, .takeCommand, .finishCommand 3, .takeCommand,
      .wake 0, .finishCommand 0]) (by decide +kernel)
  obtain ⟨hreturned, hwaiting, hexecuted⟩ := of_decide_eq_true hw
  exact ⟨w, hreach, hreturned, ((command_protocol hreach).2.2.2 1 true _ none hwaiting hexecuted).2⟩

/-- An abortion of request 7. -/
def abortSeven : RewardCommand := { uids := some (some (.list [7])) }

/-- A caller of the coordinator gives up: the handler loop dies on the report, and the next
command stays in the queue. A caller of the reward manager waits for a command that has been
executed, and its event is not set. And the loop of the reward manager dies on the abortion of a
request that is not marked as aborted. -/
theorem command_protocol_broken :
    (∃ w : CommandSystem CoordinatorCommand Nat,
      Run.Reachable (exec coordinatorHandler) (fun w a => w.Enabled a) init w ∧
      w.stopCommandHandler = false ∧
      w.handler = .crashed (.valueError "Command ID 0 not found in results.") ∧
      w.commandQueue = [(1, .wakeUp [])] ∧ w.caller 1 = .waiting false) ∧
    (∃ w : CommandSystem RewardCommand Nat,
      Run.Reachable (exec rewardHandler) (fun w a => w.Enabled a) init w ∧
      w.caller 0 = .waiting false ∧ w.executed = [((0, abortSeven), some 1)] ∧
      ¬ w.Enabled (.wake 0 : Action RewardCommand AbortReply)) ∧
    ∃ w : CommandSystem RewardCommand Nat,
      Run.Reachable (exec rewardHandler) (fun w a => w.Enabled a) init w ∧
      w.stopCommandHandler = false ∧ abortSeven.wellFormed = true ∧ w.caller 0 = .detached ∧
      w.handler = .failed 0 abortSeven
        (.assertionError "Update status should not be successful for aborted requests.") ∧
      w.commandQueue = [(1, abortSeven)] := by
  refine ⟨?_, ?_, ?_⟩
  · obtain ⟨w, hreach, hw⟩ : ∃ w : CommandSystem CoordinatorCommand Nat,
        Run.Reachable (exec coordinatorHandler) (fun w a => w.Enabled a) init w ∧
        decide (w.stopCommandHandler = false ∧
          w.handler = .crashed (.valueError "Command ID 0 not found in results.") ∧
          w.commandQueue = [(1, .wakeUp [])] ∧ w.caller 1 = .waiting false) = true :=
      Run.exists_reachable_of_perform (l := [.execCommand (.sleep []) true true, .takeCommand,
        .giveUp 0, .execCommand (.wakeUp []) false true, .finishCommand 0])
        (by decide +kernel)
    exact ⟨w, hreach, of_decide_eq_true hw⟩
  · obtain ⟨w, hreach, hw⟩ : ∃ w : CommandSystem RewardCommand Nat,
        Run.Reachable (exec rewardHandler) (fun w a => w.Enabled a) init w ∧
        decide (w.caller 0 = .waiting false ∧ w.executed = [((0, abortSeven), some 1)] ∧
          ¬ w.Enabled (.wake 0 : Action RewardCommand AbortReply)) = true :=
      Run.exists_reachable_of_perform (l := [.execCommand abortSeven false true,
        .takeCommand, .finishCommand ⟨[], 1, fun _ => false⟩]) (by decide +kernel)
    exact ⟨w, hreach, of_decide_eq_true hw⟩
  · obtain ⟨w, hreach, hw⟩ : ∃ w : CommandSystem RewardCommand Nat,
        Run.Reachable (exec rewardHandler) (fun w a => w.Enabled a) init w ∧
        decide (w.stopCommandHandler = false ∧ abortSeven.wellFormed = true ∧
          w.caller 0 = .detached ∧ w.handler = .failed 0 abortSeven
            (.assertionError "Update status should not be successful for aborted requests.") ∧
          w.commandQueue = [(1, abortSeven)]) = true :=
      Run.exists_reachable_of_perform (l := [.execCommand abortSeven false false,
        .execCommand abortSeven false false, .takeCommand,
        .finishCommand ⟨[], 0, fun _ => true⟩]) (by decide +kernel)
    exact ⟨w, hreach, of_decide_eq_true hw⟩

/-- **Commands are neither lost, repeated nor mixed up.** In every run, also when callers give up,
the loop dies on a report or in a command or is stopped: the commands are numbered in the order of
the calls and executed in this order, each at most once; the rest is at hand or in the queue; and a
caller that has returned has the result of its own command. -/
theorem commands_executed_in_order
    (hreach : Run.Reachable (exec h) (fun w a => w.Enabled a) init w) :
    (w.enqueued.map Prod.fst = List.range w.commandCounter ∧
      w.enqueued = w.executed.map Prod.fst ++ w.running ++ w.commandQueue) ∧
    (w.executed.map fun entry => entry.1.1).Nodup ∧
    ∀ id result, w.caller id = .returned result →
      ∃ command, (id, command) ∈ w.enqueued ∧ ((id, command), result) ∈ w.executed := by
  have hist : History h w := hreach.invariant History.init fun _ _ _ hist henabled hexec =>
    hist.exec henabled hexec
  refine ⟨⟨hist.numbered, by rw [hist.fifo, left, List.append_assoc]⟩, ?_,
    fun id result hcaller => ?_⟩
  · exact (List.nodup_append.mp (hist.ids ▸ List.nodup_range)).1
  · obtain ⟨command, hmem⟩ := hist.returned id result hcaller
    refine ⟨command, ?_, hmem⟩
    rw [hist.fifo]
    exact List.mem_append_left _ (List.mem_map_of_mem hmem)

/-- The first caller gives up, and the loop dies with the second command in the queue. -/
theorem commands_executed_in_order_gave_up :
    ∃ w : CommandSystem CoordinatorCommand Nat, w.caller 0 = .gaveUp ∧
      w.handler = .crashed (.valueError "Command ID 0 not found in results.") ∧
      w.enqueued = [(0, .sleep []), (1, .wakeUp [])] ∧
      w.enqueued = w.executed.map Prod.fst ++ w.running ++ w.commandQueue := by
  obtain ⟨w, hreach, hw⟩ : ∃ w : CommandSystem CoordinatorCommand Nat,
      Run.Reachable (exec coordinatorHandler) (fun w a => w.Enabled a) init w ∧
      decide (w.caller 0 = .gaveUp ∧
        w.handler = .crashed (.valueError "Command ID 0 not found in results.") ∧
        w.enqueued = [(0, .sleep []), (1, .wakeUp [])]) = true :=
    Run.exists_reachable_of_perform (l := [.execCommand (.sleep []) true true, .takeCommand,
      .giveUp 0, .execCommand (.wakeUp []) false true, .finishCommand 0]) (by decide +kernel)
  obtain ⟨hcaller, hhandler, henqueued⟩ := of_decide_eq_true hw
  exact ⟨w, hcaller, hhandler, henqueued, (commands_executed_in_order hreach).1.2⟩

end Runs

end CommandSystem

end Psrl
