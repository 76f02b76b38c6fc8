import Psrl.Lib.Run
import Psrl.Lib.Python
import Psrl.Env.Shell

/-!
# Psrl.Env.Sandbox

**Commands in one sandbox** (`ContainerShell` and `EnvWorker.exec` of
`workers/env_worker/worker.py`): a call drains what earlier commands left in the pipe, writes its
command and reads until a sentinel is there or the time is up.

The shell runs the commands it was given in order and prints at its own pace, also while a call
drains or reads: `unprinted` is what it is still going to print. The steps of a call are its single
reads of the pipe.

A result belongs to its call (`Own`) if the shell has printed everything of the earlier commands
when the drain ends, and no chunk that is read ends within a character.
-/

namespace Psrl

open Py

/-- `ExecResult`, without the duration. -/
structure ExecResult where
  stdout : List Char
  exitCode : Option Int
  timedOut : Bool
  deriving DecidableEq

/-- `_SHELL_READ_CHUNK`. -/
def shellReadChunk : Nat := 65536

/-- Where a call of `exec` is. -/
inductive ExecPhase
  | idle
  | draining (command : Command)
  | reading (command : Command)
  deriving DecidableEq

/-- A sandbox: its shell, the pipe, `_buffer`, and the calls with their results. -/
structure Sandbox where
  unprinted : List UInt8
  pipe : List UInt8
  buffer : List Char
  phase : ExecPhase
  results : List (Command × ExecResult)

namespace Sandbox

variable {maxObservationChars : Int} {s s' : Sandbox} {command : Command} {result : ExecResult}

def init : Sandbox := ⟨[], [], [], .idle, []⟩

/-- The next bytes `os.read` returns. -/
def chunk (s : Sandbox) : List UInt8 := s.pipe.take shellReadChunk

def readAvailable (s : Sandbox) : Sandbox := { s with pipe := s.pipe.drop shellReadChunk }

/-- The shell prints some more bytes. -/
def print (s : Sandbox) (n : Nat) : Sandbox :=
  { s with unprinted := s.unprinted.drop n, pipe := s.pipe ++ s.unprinted.take n }

/-- `exec` begins to drain. -/
def startExec (s : Sandbox) (command : Command) : Sandbox :=
  { s with buffer := [], phase := .draining command }

/-- `shell.write(wrap_command(command))`. -/
def write (s : Sandbox) (command : Command) : Sandbox :=
  { s with
    unprinted := s.unprinted ++ printed 0 (wrapCommand command)
    phase := .reading command }

/-- One read of `drain`. -/
def drain (s : Sandbox) (command : Command) : Sandbox :=
  if s.chunk = [] then s.write command else s.readAvailable

/-- The end of a call. -/
def finish (s : Sandbox) (command : Command) (result : ExecResult) : Sandbox :=
  { s with buffer := [], phase := .idle, results := s.results ++ [(command, result)] }

/-- One read of `read_until`, and the result if the sentinel is there. -/
def readUntil (maxObservationChars : Int) (s : Sandbox) (command : Command) : Sandbox :=
  if s.chunk = [] then s
  else
    match parseSentinel (s.buffer ++ decode s.chunk) with
    | none =>
        { s with pipe := s.pipe.drop shellReadChunk, buffer := s.buffer ++ decode s.chunk }
    | some (body, exitCode) => s.readAvailable.finish command
        ⟨truncateObservation body maxObservationChars, exitCode, false⟩

/-- The time is up, or there was no output for too long. -/
def timeOut (maxObservationChars : Int) (s : Sandbox) (command : Command) : Sandbox :=
  s.finish command ⟨truncateObservation s.buffer maxObservationChars, none, true⟩

/-! ### Runs -/

inductive Action
  | print (n : Nat)
  | exec (command : Command)
  | drain
  | read
  | timeOut

def exec (maxObservationChars : Int) (s : Sandbox) : Action → Except PyError Sandbox
  | .print n => .ok (s.print n)
  | .exec command => .ok (s.startExec command)
  | .drain =>
      match s.phase with
      | .draining command => .ok (s.drain command)
      | _ => .ok s
  | .read =>
      match s.phase with
      | .reading command => .ok (s.readUntil maxObservationChars command)
      | _ => .ok s
  | .timeOut =>
      match s.phase with
      | .reading command => .ok (s.timeOut maxObservationChars command)
      | _ => .ok s

/-- Calls are made one after another, for commands that do not print the marker; a call gives up
only after a read that found nothing. -/
def Allowed (s : Sandbox) : Action → Prop
  | .exec command => s.phase = .idle ∧ ¬ processDoneMarkerStart <:+: decode command.output
  | .timeOut => s.pipe = []
  | _ => True

instance (s : Sandbox) (a : Action) : Decidable (s.Allowed a) := by
  cases a <;> unfold Allowed <;> infer_instance

/-- When the drain has found nothing, the shell has printed everything of the earlier commands;
a chunk does not end within a character. -/
def InOrder (s : Sandbox) : Action → Prop
  | .drain => s.pipe = [] → s.unprinted = []
  | .read => decode (s.pipe ++ s.unprinted) =
      decode s.chunk ++ decode (s.pipe.drop shellReadChunk ++ s.unprinted)
  | _ => True

instance (s : Sandbox) (a : Action) : Decidable (s.InOrder a) := by
  cases a <;> unfold InOrder <;> infer_instance

/-! ### The result of a call -/

/-- The result has the exit code and the output of the command. What is left of the sentinel's
line is its newline, if it was read with the sentinel. -/
def Own (maxObservationChars : Int) (command : Command) (result : ExecResult) : Prop :=
  result.exitCode = some (command.status.val : Int) ∧ ∃ tail, tail <+: ['\n'] ∧
    result.stdout = truncateObservation (decode command.output ++ tail) maxObservationChars

/-- What the shell prints for the command, as it is read. -/
def transcript (command : Command) : List Char :=
  decode command.output ++ (sentinel command.status ++ ['\n'])

theorem decode_printed (command : Command) :
    decode (printed 0 (wrapCommand command)) = transcript command := by
  have hprinted := printed_append 0 command []
  rw [List.append_nil] at hprinted
  rw [hprinted]
  show decode (command.output ++ asciiBytes _ ++ []) = _
  rw [List.append_nil, decode_append_asciiBytes _ (sentinel_ascii command.status)]
  rfl

structure Inv (maxObservationChars : Int) (s : Sandbox) : Prop where
  draining : ∀ command, s.phase = .draining command → s.buffer = [] ∧
    ¬ processDoneMarkerStart <:+: decode command.output
  reading : ∀ command, s.phase = .reading command →
    s.buffer ++ decode (s.pipe ++ s.unprinted) = transcript command ∧
      ¬ processDoneMarkerStart <:+: decode command.output
  results : ∀ item ∈ s.results, item.2.timedOut = false → Own maxObservationChars item.1 item.2

namespace Inv

theorem init : Inv maxObservationChars init where
  draining _ h := by cases h
  reading _ h := by cases h
  results _ h := absurd h List.not_mem_nil

theorem print (h : Inv maxObservationChars s) (n : Nat) : Inv maxObservationChars (s.print n) where
  draining := h.draining
  reading command hphase := by
    obtain ⟨hread, hout⟩ := h.reading command hphase
    refine ⟨?_, hout⟩
    show s.buffer ++ decode (s.pipe ++ s.unprinted.take n ++ s.unprinted.drop n) = _
    rw [List.append_assoc, List.take_append_drop]
    exact hread
  results := h.results

theorem startExec (h : Inv maxObservationChars s)
    (hout : ¬ processDoneMarkerStart <:+: decode command.output) :
    Inv maxObservationChars (s.startExec command) where
  draining command' hphase := by
    cases hphase
    exact ⟨rfl, hout⟩
  reading _ hphase := by cases hphase
  results := h.results

/-- The command is written to a shell that has nothing else to print. -/
theorem write (h : Inv maxObservationChars s) (hphase : s.phase = .draining command)
    (hpipe : s.pipe = []) (hunprinted : s.unprinted = []) :
    Inv maxObservationChars (s.write command) where
  draining _ hphase' := by cases hphase'
  reading command' hphase' := by
    cases hphase'
    obtain ⟨hbuffer, hout⟩ := h.draining command hphase
    refine ⟨?_, hout⟩
    show s.buffer ++ decode (s.pipe ++ (s.unprinted ++ printed 0 (wrapCommand command))) = _
    rw [hbuffer, hpipe, hunprinted]
    exact decode_printed command
  results := h.results

theorem drain (h : Inv maxObservationChars s) (hphase : s.phase = .draining command)
    (horder : s.pipe = [] → s.unprinted = []) : Inv maxObservationChars (s.drain command) := by
  unfold Sandbox.drain
  split
  · rename_i hchunk
    have hpipe : s.pipe = [] := (List.take_eq_nil_iff.mp hchunk).resolve_left (by decide)
    exact h.write hphase hpipe (horder hpipe)
  · refine ⟨h.draining, fun command' hphase' => ?_, h.results⟩
    have hphase' : s.phase = .reading command' := hphase'
    rw [hphase] at hphase'
    cases hphase'

theorem finish (hresults : ∀ item ∈ s.results, item.2.timedOut = false →
      Own maxObservationChars item.1 item.2)
    (hresult : result.timedOut = false → Own maxObservationChars command result) :
    Inv maxObservationChars (s.finish command result) where
  draining _ hphase := by cases hphase
  reading _ hphase := by cases hphase
  results item hitem := by
    rcases List.mem_append.mp hitem with hold | hnew
    · exact hresults item hold
    · rw [List.mem_singleton.mp hnew]
      exact hresult

theorem readUntil (h : Inv maxObservationChars s) (hphase : s.phase = .reading command)
    (horder : decode (s.pipe ++ s.unprinted) =
      decode s.chunk ++ decode (s.pipe.drop shellReadChunk ++ s.unprinted)) :
    Inv maxObservationChars (s.readUntil maxObservationChars command) := by
  obtain ⟨hread, hout⟩ := h.reading command hphase
  rw [horder, ← List.append_assoc] at hread
  unfold Sandbox.readUntil
  split
  · exact h
  split
  · refine ⟨fun command' hphase' => ?_, fun command' hphase' => ?_, h.results⟩
    · have hphase' : s.phase = .draining command' := hphase'
      rw [hphase] at hphase'
      cases hphase'
    · have hphase' : s.phase = .reading command' := hphase'
      rw [hphase] at hphase'
      cases hphase'
      exact ⟨hread, hout⟩
  · rename_i body exitCode hparse
    have hpre : s.buffer ++ decode s.chunk <+: transcript command := ⟨_, hread⟩
    obtain ⟨hcode, tail, htail, rfl⟩ := parseSentinel_of_prefix hout hpre hparse
    exact finish h.results fun _ => ⟨hcode, tail, htail, rfl⟩

theorem exec (h : Inv maxObservationChars s) {a : Action} (hallowed : s.Allowed a)
    (horder : s.InOrder a) (hexec : exec maxObservationChars s a = .ok s') :
    Inv maxObservationChars s' := by
  cases a with
  | print n =>
      cases hexec
      exact h.print n
  | exec command =>
      cases hexec
      exact h.startExec hallowed.2
  | drain =>
      dsimp only [Sandbox.exec] at hexec
      split at hexec
      · rename_i hphase
        cases hexec
        exact h.drain hphase horder
      · cases hexec
        exact h
  | read =>
      dsimp only [Sandbox.exec] at hexec
      split at hexec
      · rename_i hphase
        cases hexec
        exact h.readUntil hphase horder
      · cases hexec
        exact h
  | timeOut =>
      dsimp only [Sandbox.exec] at hexec
      split at hexec
      · cases hexec
        exact finish h.results fun htimed => by cases htimed
      · cases hexec
        exact h

end Inv

/-- **Attribution.** In every run whose steps are in order, a result that did not time out has
the exit code and the output of its own command. -/
theorem exec_result_own (hreach : Run.Reachable (exec maxObservationChars)
    (fun s a => s.Allowed a ∧ s.InOrder a) init s) :
    ∀ item ∈ s.results, item.2.timedOut = false → Own maxObservationChars item.1 item.2 :=
  (hreach.invariant Inv.init fun _ _ _ hs hstep hexec => hs.exec hstep.1 hstep.2 hexec).results

/-- A command that prints `a` and fails, and one that prints `b`. -/
def failing : Command := ⟨asciiBytes ['a'], 1⟩

def succeeding : Command := ⟨asciiBytes ['b'], 0⟩

/-- A command times out and ends before the next call, which drains what it printed. -/
theorem exec_result_own_after_timeout :
    ∃ s, Run.Reachable (exec 0) (fun s a => s.Allowed a ∧ s.InOrder a) init s ∧
      s.results = [(failing, ⟨[], none, true⟩), (succeeding, ⟨['b', '\n'], some 0, false⟩)] ∧
      ∀ item ∈ s.results, item.2.timedOut = false → Own 0 item.1 item.2 := by
  obtain ⟨s, hreach, hs⟩ : ∃ s,
      Run.Reachable (exec 0) (fun s a => s.Allowed a ∧ s.InOrder a) init s ∧
      decide (s.results =
        [(failing, ⟨[], none, true⟩), (succeeding, ⟨['b', '\n'], some 0, false⟩)]) = true :=
    Run.exists_reachable_of_perform (l := [.exec failing, .drain, .timeOut, .print 100,
      .exec succeeding, .drain, .drain, .print 100, .read]) (by decide +kernel)
  exact ⟨s, hreach, of_decide_eq_true hs, exec_result_own hreach⟩

/-- Two runs that are not in order. The command of a call that timed out ends after the next call
has drained the pipe: the second call returns its output and its exit code. A chunk ends within the
two bytes of a character, which is returned as two replacements. -/
theorem exec_result_of_earlier_command :
    (∃ s, Run.Reachable (exec 0) Allowed init s ∧ s.results =
      [(failing, ⟨[], none, true⟩), (succeeding, ⟨['a', '\n'], some 1, false⟩)]) ∧
    ∃ s, Run.Reachable (exec 0) Allowed init s ∧ s.results =
      [(⟨[0xC3, 0xA9], 0⟩, ⟨[Utf8.replacement, Utf8.replacement, '\n'], some 0, false⟩)] ∧
      decode [0xC3, 0xA9] = ['é'] := by
  constructor
  · obtain ⟨s, hreach, hs⟩ : ∃ s, Run.Reachable (exec 0) Allowed init s ∧
        decide (s.results =
          [(failing, ⟨[], none, true⟩), (succeeding, ⟨['a', '\n'], some 1, false⟩)]) = true :=
      Run.exists_reachable_of_perform (l := [.exec failing, .drain, .timeOut,
        .exec succeeding, .drain, .print 35, .read]) (by decide +kernel)
    exact ⟨s, hreach, of_decide_eq_true hs⟩
  · obtain ⟨s, hreach, hs⟩ : ∃ s, Run.Reachable (exec 0) Allowed init s ∧
        decide (s.results = [(⟨[0xC3, 0xA9], 0⟩,
          ⟨[Utf8.replacement, Utf8.replacement, '\n'], some 0, false⟩)]) = true :=
      Run.exists_reachable_of_perform (l := [.exec ⟨[0xC3, 0xA9], 0⟩, .drain, .print 1, .read,
        .print 100, .read]) (by decide +kernel)
    exact ⟨s, hreach, of_decide_eq_true hs, by decide⟩

end Sandbox

end Psrl
