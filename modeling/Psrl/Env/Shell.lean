import Mathlib.Algebra.Ring.Nat
import Psrl.Lib.Utf8

/-!
# Psrl.Env.Shell

**The persistent shell** (`workers/env_worker/shell.py`): a command is followed by an `echo` of a
sentinel with its exit status, and `parse_sentinel` splits what was read at the first sentinel.

Texts are lists of characters. What matters about a command is what it prints and its exit
status; the two lines `wrap_command` makes of it are kept as lines, with their meaning in
`printed`.
-/

namespace Psrl

open Py

/-- `"///PROCESS-DONE:"`. -/
def processDoneMarkerStart : List Char :=
  ['/', '/', '/', 'P', 'R', 'O', 'C', 'E', 'S', 'S', '-', 'D', 'O', 'N', 'E', ':']

/-- `":PROCESS-DONE///"`. -/
def processDoneMarkerEnd : List Char :=
  [':', 'P', 'R', 'O', 'C', 'E', 'S', 'S', '-', 'D', 'O', 'N', 'E', '/', '/', '/']

/-! ### `wrap_command` -/

/-- A command as the shell sees it: the bytes it prints and its exit status. -/
structure Command where
  output : List UInt8
  status : Fin 256
  deriving DecidableEq

/-- A line of input for the shell. -/
inductive ShellLine
  | command (command : Command)
  /-- `EXITSTATUS="$?"; sleep 0.01; echo ///PROCESS-DONE:$EXITSTATUS:PROCESS-DONE///` -/
  | sentinelEcho

def wrapCommand (command : Command) : List ShellLine := [.command command, .sentinelEcho]

/-- The status as the shell prints it. -/
def statusText (status : Fin 256) : List Char := Nat.toDigits 10 status.val

def sentinel (status : Fin 256) : List Char :=
  processDoneMarkerStart ++ statusText status ++ processDoneMarkerEnd

instance statusCount : NeZero 256 := ⟨by decide⟩

/-- What the shell prints for some lines; `status` is `$?`. -/
def printed (status : Fin 256) : List ShellLine → List UInt8
  | [] => []
  | .command command :: lines => command.output ++ printed command.status lines
  | .sentinelEcho :: lines => asciiBytes (sentinel status ++ ['\n']) ++ printed 0 lines

theorem printed_append (status : Fin 256) (command : Command) (lines : List ShellLine) :
    printed status (wrapCommand command ++ lines) =
      command.output ++ asciiBytes (sentinel command.status ++ ['\n']) ++ printed 0 lines := by
  simp [wrapCommand, printed]

/-! ### `parse_sentinel` -/

/-- `(.+?)` and the end marker: the shortest payload of at least one character, none of them a
newline, with what follows the marker. -/
def scanPayload : List Char → Option (List Char × List Char)
  | [] => none
  | c :: rest =>
      if c = '\n' then none
      else if processDoneMarkerEnd.isPrefixOf rest then
        some ([c], rest.drop processDoneMarkerEnd.length)
      else (scanPayload rest).map fun (payload, after) => (c :: payload, after)

/-- A match of the sentinel at the start of a text. -/
def matchSentinel (text : List Char) : Option (List Char × List Char) :=
  if processDoneMarkerStart.isPrefixOf text then
    scanPayload (text.drop processDoneMarkerStart.length)
  else none

/-- The first match in a text, with what stands before and after it. -/
def searchSentinel : List Char → Option (List Char × List Char × List Char)
  | [] => none
  | c :: rest =>
      match matchSentinel (c :: rest) with
      | some (payload, after) => some ([], payload, after)
      | none => (searchSentinel rest).map fun (before, found) => (c :: before, found)

def isSpace (c : Char) : Bool :=
  c = ' ' || c = '\t' || c = '\n' || c = '\r' || c.toNat = 0x0B || c.toNat = 0x0C

/-- Digits with single underscores between them; `digit` says that the last character was one. -/
def readDigits : List Char → Nat → Bool → Option Nat
  | [], value, true => some value
  | [], _, false => none
  | c :: rest, value, digit =>
      if c.isDigit then readDigits rest (value * 10 + (c.toNat - '0'.toNat)) true
      else if c = '_' ∧ digit = true then readDigits rest value false
      else none

/-- `int(text)`, for texts in ASCII. -/
def pyInt (text : List Char) : Option Int :=
  match ((text.dropWhile isSpace).reverse.dropWhile isSpace).reverse with
  | '-' :: rest => (readDigits rest 0 false).map fun n => -(n : Int)
  | '+' :: rest => (readDigits rest 0 false).map fun n => (n : Int)
  | rest => (readDigits rest 0 false).map fun n => (n : Int)

/-- The text without the sentinel, and the exit code. -/
def parseSentinel (buffer : List Char) : Option (List Char × Option Int) :=
  (searchSentinel buffer).map fun (before, payload, after) => (before ++ after, pyInt payload)

/-! ### `truncate_observation` -/

def truncationNotice (omitted : Nat) : List Char :=
  "\n... ".toList ++ Nat.toDigits 10 omitted ++ " characters omitted ...\n".toList

def truncateObservation (text : List Char) (maxChars : Int) : List Char :=
  if maxChars ≤ 0 ∨ (text.length : Int) ≤ maxChars * 2 then text
  else
    let perSide := ((maxChars * 2 - (truncationNotice text.length).length) / 2).toNat
    let omitted := text.length - perSide * 2
    text.take perSide ++ truncationNotice omitted ++
      (if perSide > 0 then text.drop (text.length - perSide) else [])

/-! ### The first sentinel of what is read -/

theorem statusText_ne_nil : ∀ status, statusText status ≠ [] := by decide +kernel

theorem isDigit_of_mem_statusText {status : Fin 256} {c : Char} (h : c ∈ statusText status) :
    c.isDigit = true :=
  Nat.isDigit_of_mem_toDigits (by decide) (by decide) h

theorem ne_of_mem_statusText (status : Fin 256) :
    ∀ c ∈ statusText status, c ≠ ':' ∧ c ≠ '\n' := by
  intro c hc
  have hdigit := isDigit_of_mem_statusText hc
  constructor
  · rintro rfl
    exact absurd hdigit (by decide)
  · rintro rfl
    exact absurd hdigit (by decide)

/-- The code is read back from the sentinel. -/
theorem pyInt_statusText : ∀ status : Fin 256,
    pyInt (statusText status) = some (status.val : Int) := by
  decide +kernel

theorem sentinel_ascii (status : Fin 256) : ∀ c ∈ sentinel status ++ ['\n'], c.toNat < 0x80 := by
  have hmarkers : ∀ c ∈ processDoneMarkerStart ++ processDoneMarkerEnd ++ ['\n'],
      c.toNat < 0x80 := by
    simp [processDoneMarkerStart, processDoneMarkerEnd]
  intro c hc
  by_cases hmem : c ∈ statusText status
  · have hdigit := isDigit_of_mem_statusText hmem
    simp only [Char.isDigit, Bool.and_eq_true, decide_eq_true_eq] at hdigit
    exact Nat.lt_of_le_of_lt hdigit.2 (by decide +kernel)
  · refine hmarkers c ?_
    simp only [sentinel, List.mem_append] at hc ⊢
    grind

/-- The start marker is not found among characters other than slashes. -/
theorem start_not_infix_append {rest : List Char} (hrest : ¬ processDoneMarkerStart <:+: rest) :
    ∀ {text : List Char}, (∀ c ∈ text, c ≠ '/') → ¬ processDoneMarkerStart <:+: text ++ rest
  | [], _ => hrest
  | c :: text, htext => by
      rw [List.cons_append, List.infix_cons_iff]
      rintro (hpre | hin)
      · exact htext c (List.mem_cons_self ..) (List.cons_prefix_cons.mp hpre).1.symm
      · exact start_not_infix_append hrest (fun d hd => htext d (List.mem_cons_of_mem _ hd)) hin

/-- The line of the sentinel has no second one. -/
theorem start_not_infix_tail (status : Fin 256) :
    ¬ processDoneMarkerStart <:+: (sentinel status ++ ['\n']).tail := by
  have hslash : ∀ c ∈ processDoneMarkerStart.drop 3 ++ statusText status ++
      processDoneMarkerEnd.take 13, c ≠ '/' := by
    have hmarkers : ∀ c ∈ processDoneMarkerStart.drop 3 ++ processDoneMarkerEnd.take 13,
        c ≠ '/' := by
      simp [processDoneMarkerStart, processDoneMarkerEnd]
    rintro c hc rfl
    by_cases hmem : '/' ∈ statusText status
    · exact absurd (isDigit_of_mem_statusText hmem) (by decide +kernel)
    · refine hmarkers '/' ?_ rfl
      simp only [List.mem_append] at hc ⊢
      grind
  have hmiddle := start_not_infix_append
    (show ¬ processDoneMarkerStart <:+: ['/', '/', '/', '\n'] by decide) hslash
  have hline : (sentinel status ++ ['\n']).tail = '/' :: '/' :: (processDoneMarkerStart.drop 3 ++
      statusText status ++ processDoneMarkerEnd.take 13 ++ ['/', '/', '/', '\n']) := by
    simp [sentinel, processDoneMarkerStart, processDoneMarkerEnd]
  rw [hline, List.infix_cons_iff, List.infix_cons_iff]
  -- of the two slashes that are left of the marker, neither starts three in a row
  rintro (hpre | hpre | hin)
  · have hthird := (List.cons_prefix_cons.mp (List.cons_prefix_cons.mp hpre).2).2
    exact absurd (List.cons_prefix_cons.mp hthird).1 (by decide)
  · have hsecond := (List.cons_prefix_cons.mp hpre).2
    exact absurd (List.cons_prefix_cons.mp hsecond).1 (by decide)
  · exact hmiddle hin

theorem searchSentinel_take_start : ∀ k < processDoneMarkerStart.length,
    searchSentinel (processDoneMarkerStart.take k) = none := by
  decide +kernel

theorem scanPayload_take_end : ∀ k < processDoneMarkerEnd.length,
    scanPayload (processDoneMarkerEnd.take k) = none := by
  decide +kernel

/-- A text without the start marker has no sentinel. -/
theorem searchSentinel_eq_none : ∀ {text : List Char}, ¬ processDoneMarkerStart <:+: text →
    searchSentinel text = none
  | [], _ => rfl
  | c :: rest, h => by
      have hhead : matchSentinel (c :: rest) = none := by
        refine if_neg fun hpre => h ?_
        exact (List.isPrefixOf_iff_prefix.mp hpre).isInfix
      have hrest : searchSentinel rest = none :=
        searchSentinel_eq_none fun hin => h (hin.trans (List.suffix_cons c rest).isInfix)
      unfold searchSentinel
      rw [hhead, hrest]
      rfl

/-- The payload is the status, as soon as the end marker is there. -/
theorem scanPayload_of_prefix {after : List Char} : ∀ {digits text : List Char}, digits ≠ [] →
    (∀ c ∈ digits, c ≠ ':' ∧ c ≠ '\n') → text <+: digits ++ processDoneMarkerEnd ++ after →
      scanPayload text = none ∨ ∃ tail, text = digits ++ processDoneMarkerEnd ++ tail ∧
        scanPayload text = some (digits, tail)
  | [], _, hne, _, _ => absurd rfl hne
  | _, [], _, _, _ => .inl rfl
  | d :: ds, c :: rest, _, hdigits, hpre => by
      obtain ⟨rfl, hrest⟩ := List.cons_prefix_cons.mp hpre
      have hnl : c ≠ '\n' := (hdigits c (List.mem_cons_self ..)).2
      have hds : ∀ e ∈ ds, e ≠ ':' ∧ e ≠ '\n' := fun e he => hdigits e (List.mem_cons_of_mem _ he)
      unfold scanPayload
      rw [if_neg hnl]
      cases ds with
      | nil =>
          by_cases hend : processDoneMarkerEnd.isPrefixOf rest = true
          · obtain ⟨tail, rfl⟩ := List.isPrefixOf_iff_prefix.mp hend
            rw [if_pos hend, List.drop_left]
            exact .inr ⟨tail, rfl, rfl⟩
          · -- the end marker is not complete
            rw [if_neg hend]
            have hlt : rest.length < processDoneMarkerEnd.length := by
              refine Nat.lt_of_not_le fun hle => hend (List.isPrefixOf_iff_prefix.mpr ?_)
              exact List.prefix_of_prefix_length_le (List.prefix_append _ after) hrest hle
            have htake : rest = processDoneMarkerEnd.take rest.length :=
              List.prefix_iff_eq_take.mp (List.prefix_of_prefix_length_le hrest
                (List.prefix_append _ after) (Nat.le_of_lt hlt))
            rw [htake, scanPayload_take_end _ hlt]
            exact .inl rfl
      | cons e es =>
          have hend : ¬ processDoneMarkerEnd.isPrefixOf rest = true := by
            intro hend
            have h := (List.isPrefixOf_iff_prefix.mp hend).trans hrest
            exact (hds e (List.mem_cons_self ..)).1 (List.cons_prefix_cons.mp h).1.symm
          rw [if_neg hend]
          rcases scanPayload_of_prefix (List.cons_ne_nil e es) hds hrest with
            hnone | ⟨tail, rfl, hsome⟩
          · rw [hnone]
            exact .inl rfl
          · rw [hsome]
            exact .inr ⟨tail, rfl, rfl⟩

/-- The start marker does not overlap with one that stands later. -/
theorem start_not_prefix {out rest : List Char} (hne : out ≠ [])
    (hout : ¬ processDoneMarkerStart <:+: out) :
    ¬ processDoneMarkerStart <+: out ++ processDoneMarkerStart ++ rest := by
  intro hpre
  by_cases hle : processDoneMarkerStart.length ≤ out.length
  · refine hout (List.IsPrefix.isInfix ?_)
    rw [List.append_assoc] at hpre
    exact List.prefix_of_prefix_length_le hpre (List.prefix_append ..) hle
  · -- the colon at its end would have to stand within the later marker, which has only one
    have hlen : 0 < out.length := List.length_pos_iff.mpr hne
    have hcolon : (out ++ processDoneMarkerStart ++ rest)[15]? = some ':' := by
      obtain ⟨tail, htail⟩ := hpre
      rw [← htail]
      rfl
    have hlt : out.length < 16 := Nat.lt_of_not_le hle
    rw [List.append_assoc, List.getElem?_append_right (by omega),
      List.getElem?_append_left (show 15 - out.length < 16 by omega)] at hcolon
    have hother : ∀ k < 15, processDoneMarkerStart[k]? ≠ some ':' := by decide +kernel
    exact hother (15 - out.length) (by omega) hcolon

/-- What was read of a command's output and its sentinel has no sentinel, or has this one. -/
theorem searchSentinel_of_prefix (status : Fin 256) : ∀ {out buffer : List Char},
    ¬ processDoneMarkerStart <:+: out → buffer <+: out ++ (sentinel status ++ ['\n']) →
      searchSentinel buffer = none ∨ ∃ tail, buffer = out ++ (sentinel status ++ tail) ∧
        searchSentinel buffer = some (out, statusText status, tail)
  | _, [], _, _ => .inl rfl
  | [], c :: rest, _, hpre => by
      rw [List.nil_append] at hpre
      by_cases hlt : (c :: rest).length < processDoneMarkerStart.length
      · have hmarker : processDoneMarkerStart <+: sentinel status ++ ['\n'] := by
          unfold sentinel
          simp only [List.append_assoc]
          exact List.prefix_append ..
        rw [List.prefix_iff_eq_take.mp
          (List.prefix_of_prefix_length_le hpre hmarker (Nat.le_of_lt hlt))]
        exact .inl (searchSentinel_take_start _ hlt)
      · obtain ⟨text, htext⟩ : processDoneMarkerStart <+: c :: rest := by
          refine List.prefix_of_prefix_length_le ?_ hpre (Nat.le_of_not_lt hlt)
          unfold sentinel
          simp only [List.append_assoc]
          exact List.prefix_append ..
        have hpay : text <+: statusText status ++ processDoneMarkerEnd ++ ['\n'] := by
          rw [← htext] at hpre
          unfold sentinel at hpre
          simp only [List.append_assoc, List.prefix_append_right_inj] at hpre ⊢
          exact hpre
        have hmatch : matchSentinel (c :: rest) = scanPayload text := by
          rw [← htext]
          unfold matchSentinel
          rw [if_pos (List.isPrefixOf_iff_prefix.mpr (List.prefix_append ..)), List.drop_left]
        rcases scanPayload_of_prefix (statusText_ne_nil status) (ne_of_mem_statusText status) hpay
          with hnone | ⟨tail, rfl, hsome⟩
        · have htail : searchSentinel rest = none := by
            refine searchSentinel_eq_none fun hin => start_not_infix_tail status ?_
            obtain ⟨later, hlater⟩ := hpre
            rw [← hlater]
            exact hin.trans (List.prefix_append rest later).isInfix
          unfold searchSentinel
          rw [hmatch, hnone, htail]
          exact .inl rfl
        · refine .inr ⟨tail, ?_, ?_⟩
          · rw [← htext]
            simp [sentinel]
          · unfold searchSentinel
            rw [hmatch, hsome]
  | d :: out, c :: rest, hout, hpre => by
      have hrest : ¬ processDoneMarkerStart <:+: out := fun hin =>
        hout (hin.trans (List.suffix_cons d out).isInfix)
      have hmatch : matchSentinel (c :: rest) = none := by
        refine if_neg fun hhead => ?_
        have h := (List.isPrefixOf_iff_prefix.mp hhead).trans hpre
        unfold sentinel at h
        simp only [List.append_assoc] at h
        rw [← List.append_assoc] at h
        exact start_not_prefix (List.cons_ne_nil d out) hout h
      obtain ⟨rfl, hnext⟩ := List.cons_prefix_cons.mp hpre
      unfold searchSentinel
      rw [hmatch]
      rcases searchSentinel_of_prefix status hrest hnext with hnone | ⟨tail, rfl, hsome⟩
      · rw [hnone]
        exact .inl rfl
      · rw [hsome]
        exact .inr ⟨tail, rfl, rfl⟩

/-- What is parsed is the output, up to the newline of the `echo`, and the exit status. -/
theorem parseSentinel_of_prefix {out buffer body : List Char} {status : Fin 256}
    {exitCode : Option Int} (hout : ¬ processDoneMarkerStart <:+: out)
    (hpre : buffer <+: out ++ (sentinel status ++ ['\n']))
    (hparse : parseSentinel buffer = some (body, exitCode)) :
    exitCode = some (status.val : Int) ∧ ∃ tail, tail <+: ['\n'] ∧ body = out ++ tail := by
  unfold parseSentinel at hparse
  rcases searchSentinel_of_prefix status hout hpre with hnone | ⟨tail, rfl, hsome⟩
  · rw [hnone] at hparse
    cases hparse
  · rw [hsome] at hparse
    cases hparse
    refine ⟨pyInt_statusText status, tail, ?_, rfl⟩
    rwa [List.prefix_append_right_inj, List.prefix_append_right_inj] at hpre

end Psrl
