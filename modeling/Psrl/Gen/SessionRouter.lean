import Psrl.Lib.Event
import Psrl.Lib.Python
import Psrl.Lib.Run

/-!
# Psrl.Gen.SessionRouter

**The session router** (`workers/gen/session_router.py`): the turns of a session, its deletion
and the coordinator's hang and continue commands.

Handlers run on one event loop and switch at awaits that suspend. No handler awaits anything
while it holds a session's lock or `states_lock`, so both are free whenever a handler asks for
them, and what stands between two suspending awaits is one step of the model. A turn suspends at
`continue_event.wait()`, at `request.body()` and at the upstream request; a deletion at
`drained.wait()` and at its upstream request. The control commands suspend before their loop
only.

The maps `states` hand out *objects*: a session that is deleted and used again gets a new
`SessionState`, while handlers that still hold the old one go on with it.
-/

namespace Psrl

open Py

/-- `hang_state`. -/
inductive HangState
  | running
  | hung
  deriving Repr, DecidableEq

/-- `SessionState`. The lock is left out: it is never held across a suspension. -/
structure SessionState where
  headers : Dict String String
  drained : Event
  closing : Bool
  inflight : Nat
  trajectoryTurns : Dict Int Nat
  baseWorkerId : Option String
  targetDpRank : Option String
  versionTag : Option String
  totalTokens : Int
  hangState : HangState
  markedForHang : Bool
  continueEvent : Event
  pinOnceInstance : Option (String × String)

/-- What the router reads of an upstream response: `usage` are the prompt and completion tokens
of its usage block, `none` if they cannot be parsed. -/
structure HttpResponse where
  status : Nat
  headers : Dict String String
  usage : Option (Int × Int)

def sessionIdHeader : String := "x-smg-tito-session-id"

def trajectoryIdHeader : String := "x-smg-tito-trajectory-id"

/-- `trajectory_id_strategy`. -/
inductive TrajectoryIdStrategy
  | manual
  | auto
  deriving Repr, DecidableEq

namespace SessionState

variable (state : SessionState)

/-- `SessionState(headers=headers)` with `__post_init__`. -/
def new (headers : Dict String String) : SessionState where
  headers := headers
  drained := Event.new.set
  closing := false
  inflight := 0
  trajectoryTurns := .empty
  baseWorkerId := none
  targetDpRank := none
  versionTag := none
  totalTokens := 0
  hangState := .running
  markedForHang := false
  continueEvent := Event.new.set
  pinOnceInstance := none

/-- `get_trajectory_turn`. -/
def getTrajectoryTurn (trajectoryId : Int) : Nat :=
  (state.trajectoryTurns.get? trajectoryId).getD 0

/-- `_update_total_tokens`. -/
def updatedTotalTokens (result : HttpResponse) : Int :=
  match result.usage with
  | none => state.totalTokens
  | some (prompt, completion) =>
      if prompt + completion > state.totalTokens then prompt + completion else state.totalTokens

/-- The bookkeeping of a successful turn. The serving instance is stored if both headers name
it; `advance_trajectory_turn` is called for the caller's trajectory. -/
def recordSuccess (trajectoryId : Option Int) (result : HttpResponse) : SessionState :=
  let baseWorkerId := result.headers.get? "x-base-worker-id"
  let targetDpRank := result.headers.get? "x-target-dp-rank"
  let named := baseWorkerId.isSome && targetDpRank.isSome
  { state with
    baseWorkerId := if named then baseWorkerId else state.baseWorkerId
    targetDpRank := if named then targetDpRank else state.targetDpRank
    versionTag := (result.headers.get? "x-version-tag").or state.versionTag
    totalTokens := state.updatedTotalTokens result
    trajectoryTurns := match trajectoryId with
      | some id => state.trajectoryTurns.set id (state.getTrajectoryTurn id + 1)
      | none => state.trajectoryTurns }

def countDown : SessionState :=
  { state with
    inflight := state.inflight - 1
    drained := if state.inflight - 1 = 0 then state.drained.set else state.drained }

/-- The bookkeeping of a turn; `result` is `None` if the upstream call raised. -/
def settle (trajectoryId : Option Int) : Option HttpResponse → SessionState
  | some result => if result.status < 400 then state.recordSuccess trajectoryId result else state
  | none => state

/-- A hang that was requested during a turn takes effect once the session is idle. -/
def applyDeferredHang : SessionState :=
  if state.markedForHang = true ∧ state.inflight = 0 then
    { state with
      markedForHang := false
      hangState := .hung
      continueEvent := state.continueEvent.clear }
  else state

/-- The critical section at the end of a turn. -/
def closeTurn (trajectoryId : Option Int) (result : Option HttpResponse) : SessionState :=
  (state.countDown.settle trajectoryId result).applyDeferredHang

/-- The admission of a turn. -/
def admitTurn : SessionState :=
  { state with
    pinOnceInstance := none
    inflight := state.inflight + 1
    drained := state.drained.clear }

/-- The critical section of `delete_session`. -/
def beginDelete : SessionState :=
  { state with
    closing := true
    hangState := .running
    markedForHang := false
    continueEvent := state.continueEvent.set }

/-- The body of the loop of `control_hang`. -/
def hang : SessionState :=
  if state.closing = true then state
  else if state.inflight = 0 then
    { state with
      hangState := .hung
      markedForHang := false
      continueEvent := state.continueEvent.clear }
  else { state with markedForHang := true }

/-- The body of the loop of `control_continue`. -/
def continueWith (inst : Option (String × String)) : SessionState :=
  { state with
    markedForHang := false
    hangState := .running
    baseWorkerId := match inst with
      | some (worker, _) => some worker
      | none => state.baseWorkerId
    targetDpRank := match inst with
      | some (_, rank) => some rank
      | none => state.targetDpRank
    pinOnceInstance := inst.or state.pinOnceInstance
    continueEvent := state.continueEvent.set }

end SessionState

/-- `headers.update(other)`. -/
def updateHeaders (headers other : Dict String String) : Dict String String :=
  other.items.foldl (fun headers item => headers.set item.1 item.2) headers

/-- `add_session_headers`; `request` are the request's headers after `filter_http_headers`. -/
def addSessionHeaders (strategy : TrajectoryIdStrategy)
    (request sessionHeaders : Dict String String) :
    Dict String String :=
  let request := request.erase sessionIdHeader
  match strategy with
  | .auto => updateHeaders sessionHeaders (request.erase trajectoryIdHeader)
  | .manual =>
      let headers := updateHeaders sessionHeaders request
      match headers.get? trajectoryIdHeader with
      | some _ => headers
      | none => headers.set trajectoryIdHeader "0"

/-- The headers of the upstream request of a turn that is admitted in `state`. -/
def upstreamHeaders (strategy : TrajectoryIdStrategy) (request : Dict String String)
    (state : SessionState) : Dict String String :=
  let headers := addSessionHeaders strategy request state.headers
  let headers := match state.baseWorkerId with
    | some worker => headers.set "x-base-worker-id" worker
    | none => headers
  let headers := match state.targetDpRank with
    | some rank => headers.set "x-target-dp-rank" rank
    | none => headers
  let headers := match state.versionTag with
    | some tag => headers.set "x-version-tag" tag
    | none => headers
  match state.pinOnceInstance with
  | some (worker, rank) => ((headers.set "x-base-worker-id" worker).set "x-target-dp-rank" rank).set
      "x-force-pin-once" "true"
  | none => headers

/-! ### The handlers -/

/-- How a turn ended. -/
inductive Ending
  /-- the session is closing: answered with status 409 -/
  | refused
  /-- cancelled at the hang point -/
  | cancelledHung
  /-- cancelled while the body was read, or the read raised -/
  | bodyRaised
  /-- the turn writer raised -/
  | writerRaised
  /-- the upstream call raised or was cancelled -/
  | upstreamRaised
  | answered (status : Nat)
  deriving Repr, DecidableEq

/-- Where a call of `session_chat_completions` is suspended. -/
inductive TurnPhase
  /-- at `continue_event.wait()` -/
  | hung (ticket : Option Nat)
  /-- admitted, at `request.body()` -/
  | body
  /-- at the upstream request -/
  | upstream (turnIndex : Nat)
  | ended (how : Ending)
  deriving Repr, DecidableEq

/-- The ticket of a turn at the hang point. -/
def TurnPhase.ticket? : TurnPhase → Option (Option Nat)
  | .hung ticket => some ticket
  | _ => none

def TurnPhase.turnIndex? : TurnPhase → Option Nat
  | .upstream turnIndex => some turnIndex
  | _ => none

/-- A call of `session_chat_completions`. -/
structure Turn where
  sid : String
  /-- the object `_ensure_state` returned -/
  ref : Nat
  trajectoryId : Option Int
  request : Dict String String
  /-- the headers sent upstream -/
  sent : Dict String String
  /-- history: the versions that had been served when the turn was admitted -/
  servedBefore : List String
  phase : TurnPhase

/-- Where a call of `delete_session` is suspended. -/
inductive DeletePhase
  /-- at `drained.wait()` -/
  | draining (ticket : Nat)
  /-- at the upstream request -/
  | upstream
  | ended
  deriving Repr, DecidableEq

def DeletePhase.ticket? : DeletePhase → Option Nat
  | .draining ticket => some ticket
  | _ => none

structure Delete where
  sid : String
  ref : Nat
  phase : DeletePhase
  deriving Repr, DecidableEq

/-- What `turn_output_writer.write_turn` records. -/
structure TurnRecord where
  sessionId : String
  turn : Nat
  trajectoryId : Option Int
  status : Option Nat
  deriving Repr, DecidableEq

/-- `SessionRouter` with the calls it is handling. -/
structure SessionRouter where
  strategy : TrajectoryIdStrategy
  states : Dict String Nat
  /-- the `SessionState` objects; those from `nextRef` on do not exist yet -/
  objects : Nat → SessionState
  nextRef : Nat
  turns : List Turn
  deletes : List Delete
  writes : List TurnRecord
  /-- history: the objects for which the upstream `DELETE` was sent -/
  deleteSent : List Nat
  /-- history: the last of hang, continue and delete was a hang that was deferred -/
  hangDeferred : Nat → Bool
  /-- history: the number of the pin that is armed -/
  armed : Nat → Option Nat
  /-- history: how many pins have been armed -/
  pinCount : Nat
  /-- history: the pins used by turns -/
  pinUses : List Nat
  /-- history: the versions at which completed turns were served -/
  served : Nat → List String

namespace SessionRouter

variable (s : SessionRouter)

def init (strategy : TrajectoryIdStrategy) : SessionRouter where
  strategy := strategy
  states := .empty
  objects _ := SessionState.new .empty
  nextRef := 0
  turns := []
  deletes := []
  writes := []
  deleteSent := []
  hangDeferred _ := false
  armed _ := none
  pinCount := 0
  pinUses := []
  served _ := []

/-- `_ensure_state`. -/
def ensureState (sid : String) : Nat × SessionRouter :=
  match s.states.get? sid with
  | some ref => (ref, s)
  | none => (s.nextRef, { s with
      states := s.states.set sid s.nextRef
      objects := Function.update s.objects s.nextRef
        (SessionState.new (Dict.empty.set sessionIdHeader sid))
      nextRef := s.nextRef + 1 })

/-- A turn passes the hang point and is admitted, unless the session is closing. -/
def admitTurn (s : SessionRouter) (turn : Turn) : SessionRouter × Turn :=
  let state := s.objects turn.ref
  if state.closing = true then (s, { turn with phase := .ended .refused })
  else
    ({ s with
        objects := Function.update s.objects turn.ref state.admitTurn
        armed := Function.update s.armed turn.ref none
        pinUses := s.pinUses ++ (s.armed turn.ref).toList },
      { turn with
        sent := upstreamHeaders s.strategy turn.request state
        servedBefore := s.served turn.ref
        phase := .body })

/-- One iteration of the loop in front of the hang point; the loop is left to be admitted. -/
def enter (turn : Turn) : SessionRouter × Turn :=
  let state := s.objects turn.ref
  if state.closing = true then (s, { turn with phase := .ended .refused })
  else if state.hangState ≠ .hung then s.admitTurn turn
  else (s, { turn with phase := .hung state.continueEvent.wait })

/-- A turn on the object `ref`, in front of the hang point. The router tracks the trajectories
that the caller selects only. -/
def newTurn (strategy : TrajectoryIdStrategy) (sid : String) (ref : Nat) (trajectoryId : Int)
    (request : Dict String String) : Turn where
  sid := sid
  ref := ref
  trajectoryId := match strategy with
    | .manual => some trajectoryId
    | .auto => none
  request := request
  sent := .empty
  servedBefore := []
  phase := .hung none

/-- A call begins with the turn `turn`. -/
def startTurn (turn : Turn) : SessionRouter :=
  let (s, turn) := s.enter turn
  { s with turns := s.turns ++ [turn] }

/-- `session_chat_completions` up to its first suspension. -/
def sessionChatCompletions (sid : String) (trajectoryId : Int)
    (request : Dict String String) : SessionRouter :=
  let (ref, s) := s.ensureState sid
  s.startTurn (newTurn s.strategy sid ref trajectoryId request)

/-- A suspended turn goes on with `f` to its next suspension. -/
def resumeTurn (i : Nat) (f : Turn → SessionRouter × Turn) : SessionRouter :=
  match s.turns[i]? with
  | none => s
  | some turn =>
      let (s, turn) := f turn
      { s with turns := s.turns.set i turn }

/-- `request.body()` has returned: the turn index is read and the upstream request sent. -/
def sendUpstream (turn : Turn) : SessionRouter × Turn :=
  (s, { turn with
    phase := .upstream ((s.objects turn.ref).getTrajectoryTurn (turn.trajectoryId.getD 0)) })

/-- The `finally` block of a turn: the turn is written and closed. -/
def finishTurn (turn : Turn) (turnIndex : Nat) (result : Option HttpResponse)
    (writerRaises : Bool) : SessionRouter × Turn :=
  if writerRaises = true then (s, { turn with phase := .ended .writerRaised })
  else
    let record : TurnRecord :=
      ⟨turn.sid, turnIndex, turn.trajectoryId, result.map HttpResponse.status⟩
    let served := match result with
      | some result => if result.status < 400 then (result.headers.get? "x-version-tag").toList
          else []
      | none => []
    ({ s with
        objects := Function.update s.objects turn.ref
          ((s.objects turn.ref).closeTurn turn.trajectoryId result)
        writes := s.writes ++ [record]
        served := Function.update s.served turn.ref (s.served turn.ref ++ served) },
      { turn with phase := .ended (match result with
        | some result => .answered result.status
        | none => .upstreamRaised) })

/-- The upstream request of a turn has ended. -/
def finish (turn : Turn) (result : Option HttpResponse) (writerRaises : Bool) :
    SessionRouter × Turn :=
  match turn.phase with
  | .upstream turnIndex => s.finishTurn turn turnIndex result writerRaises
  | _ => (s, turn)

/-- A turn is cancelled at one of the awaits in front of its `try` block. -/
def abandon (turn : Turn) : SessionRouter × Turn :=
  match turn.phase with
  | .hung _ => (s, { turn with phase := .ended .cancelledHung })
  | .body => (s, { turn with phase := .ended .bodyRaised })
  | _ => (s, turn)

def markClosing (ref : Nat) : SessionRouter :=
  { s with
    objects := Function.update s.objects ref (s.objects ref).beginDelete
    hangDeferred := Function.update s.hangDeferred ref false }

/-- `drained.wait()` in `delete_session`: a drained session is deleted upstream at once. -/
def awaitDrained (sid : String) (ref : Nat) : SessionRouter :=
  match (s.objects ref).drained.wait with
  | some ticket => { s with deletes := s.deletes ++ [⟨sid, ref, .draining ticket⟩] }
  | none => { s with
      deletes := s.deletes ++ [⟨sid, ref, .upstream⟩]
      deleteSent := s.deleteSent ++ [ref] }

/-- `delete_session` up to its first suspension. -/
def deleteSession (sid : String) : SessionRouter :=
  let (ref, s) := s.ensureState sid
  (s.markClosing ref).awaitDrained sid ref

/-- A deletion goes on after `drained.wait()`. -/
def sendDelete (i : Nat) : SessionRouter :=
  match s.deletes[i]? with
  | none => s
  | some d => { s with
      deletes := s.deletes.set i { d with phase := .upstream }
      deleteSent := s.deleteSent ++ [d.ref] }

/-- The upstream `DELETE` was answered. -/
def endDelete (i : Nat) : SessionRouter :=
  match s.deletes[i]? with
  | none => s
  | some d => { s with
      deletes := s.deletes.set i { d with phase := .ended }
      states := if s.states.get? d.sid = some d.ref then s.states.erase d.sid else s.states }

/-- One session of `control_hang`. -/
def hangSession (sid : String) : SessionRouter :=
  match s.states.get? sid with
  | none => s
  | some ref =>
      let state := s.objects ref
      { s with
        objects := Function.update s.objects ref state.hang
        hangDeferred := if state.closing = true then s.hangDeferred
          else Function.update s.hangDeferred ref (decide (0 < state.inflight)) }

/-- `control_hang` after its payload was read. -/
def controlHang (sids : List String) : SessionRouter :=
  sids.foldl hangSession s

/-- One session of `control_continue`. -/
def continueSession (pin : String × Option (String × String)) : SessionRouter :=
  match s.states.get? pin.1 with
  | none => s
  | some ref =>
      let s := { s with
        objects := Function.update s.objects ref ((s.objects ref).continueWith pin.2)
        hangDeferred := Function.update s.hangDeferred ref false }
      match pin.2 with
      | none => s
      | some _ => { s with
          armed := Function.update s.armed ref (some s.pinCount)
          pinCount := s.pinCount + 1 }

/-- `control_continue` after its payload was read. -/
def controlContinue (pins : Dict String (Option (String × String))) : SessionRouter :=
  pins.items.foldl continueSession s

/-! ### Runs -/

inductive Action
  | chat (sid : String) (trajectoryId : Int) (request : Dict String String)
  /-- a turn goes on after `continue_event.wait()` -/
  | wake (turn : Nat)
  | readBody (turn : Nat)
  /-- the upstream request of a turn ended, `none` if it raised or was cancelled; the turn writer
  may raise -/
  | finish (turn : Nat) (result : Option HttpResponse) (writerRaises : Bool)
  /-- a turn is cancelled at the hang point or while its body is read -/
  | abandon (turn : Nat)
  | delete (sid : String)
  /-- a deletion goes on after `drained.wait()` -/
  | drained (delete : Nat)
  | deleteAnswered (delete : Nat)
  | hang (sids : List String)
  | continueSessions (pins : Dict String (Option (String × String)))

def exec : Action → Except PyError SessionRouter
  | .chat sid trajectoryId request => .ok (s.sessionChatCompletions sid trajectoryId request)
  | .wake i => .ok (s.resumeTurn i s.enter)
  | .readBody i => .ok (s.resumeTurn i s.sendUpstream)
  | .finish i result writerRaises =>
      .ok (s.resumeTurn i fun turn => s.finish turn result writerRaises)
  | .abandon i => .ok (s.resumeTurn i s.abandon)
  | .delete sid => .ok (s.deleteSession sid)
  | .drained i => .ok (s.sendDelete i)
  | .deleteAnswered i => .ok (s.endDelete i)
  | .hang sids => .ok (s.controlHang sids)
  | .continueSessions pins => .ok (s.controlContinue pins)

/-- A call goes on only from the await at which it is suspended, and from `wait()` only once it
was released. -/
def Allowed : Action → Prop
  | .wake i => ∃ turn ∈ s.turns[i]?, ∃ ticket ∈ turn.phase.ticket?,
      (s.objects turn.ref).continueEvent.Passes ticket
  | .readBody i => ∃ turn ∈ s.turns[i]?, turn.phase = .body
  | .finish i _ _ => ∃ turn ∈ s.turns[i]?, turn.phase.turnIndex?.isSome = true
  | .abandon i => ∃ turn ∈ s.turns[i]?, turn.phase = .body ∨ turn.phase.ticket?.isSome = true
  | .drained i => ∃ d ∈ s.deletes[i]?, ∃ ticket ∈ d.phase.ticket?,
      (s.objects d.ref).drained.Passes (some ticket)
  | .deleteAnswered i => ∃ d ∈ s.deletes[i]?, d.phase = .upstream
  | _ => True

instance (s : SessionRouter) (a : Action) : Decidable (s.Allowed a) := by
  cases a <;> unfold Allowed <;> infer_instance

end SessionRouter

end Psrl
