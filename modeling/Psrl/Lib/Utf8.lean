import Mathlib.Data.List.Basic

/-!
# Psrl.Lib.Utf8

**UTF-8 with replacement.** `bytes.decode(errors="replace")`: every maximal part of the input that
cannot be continued to a character is replaced by one `U+FFFD`. The decoder is a machine that
reads one byte at a time, with the unfinished character as its state; decoding a text piece by
piece is decoding it as a whole only if no piece ends within a character.
-/

namespace Py

namespace Utf8

/-- An unfinished character: how many bytes are missing, the bits read so far, and the range the
next byte has to be in. -/
structure Pending where
  needed : Nat
  codePoint : Nat
  lower : Nat
  upper : Nat
  lower_ge : 0x80 ≤ lower

def replacement : Char := Char.ofNat 0xFFFD

/-- The first byte of a character. -/
def start (b : Nat) : Option Pending × List Char :=
  if b < 0x80 then (none, [Char.ofNat b])
  else if 0xC2 ≤ b ∧ b ≤ 0xDF then (some ⟨1, b % 0x20, 0x80, 0xBF, by decide⟩, [])
  else if 0xE0 ≤ b ∧ b ≤ 0xEF then
    (some ⟨2, b % 0x10, if b = 0xE0 then 0xA0 else 0x80, if b = 0xED then 0x9F else 0xBF,
      by split <;> decide⟩, [])
  else if 0xF0 ≤ b ∧ b ≤ 0xF4 then
    (some ⟨3, b % 0x08, if b = 0xF0 then 0x90 else 0x80, if b = 0xF4 then 0x8F else 0xBF,
      by split <;> decide⟩, [])
  else (none, [replacement])

/-- One byte. A byte that does not continue the character at hand is read again as a first one. -/
def step (pending : Option Pending) (b : Nat) : Option Pending × List Char :=
  match pending with
  | none => start b
  | some p =>
      if p.lower ≤ b ∧ b ≤ p.upper then
        let codePoint := p.codePoint * 0x40 + b % 0x40
        if p.needed = 1 then (none, [Char.ofNat codePoint])
        else (some ⟨p.needed - 1, codePoint, 0x80, 0xBF, by decide⟩, [])
      else ((start b).1, replacement :: (start b).2)

/-- The end of the input. -/
def flush : Option Pending → List Char
  | none => []
  | some _ => [replacement]

def decodeFrom (pending : Option Pending) : List UInt8 → List Char
  | [] => flush pending
  | b :: rest => (step pending b.toNat).2 ++ decodeFrom (step pending b.toNat).1 rest

end Utf8

/-- `data.decode(errors="replace")`. -/
def decode (data : List UInt8) : List Char := Utf8.decodeFrom none data

/-- The bytes of a text in ASCII. -/
def asciiBytes (text : List Char) : List UInt8 := text.map fun c => UInt8.ofNat c.toNat

namespace Utf8

theorem step_ascii (pending : Option Pending) {b : Nat} (hb : b < 0x80) :
    step pending b = (none, flush pending ++ [Char.ofNat b]) := by
  have hstart : start b = (none, [Char.ofNat b]) := if_pos hb
  cases pending with
  | none => exact hstart
  | some p =>
      have hlower := p.lower_ge
      unfold step
      dsimp only
      rw [if_neg (by omega), hstart]
      rfl

/-- What is unfinished before an ASCII byte is replaced, as it is at the end of the input. -/
theorem decodeFrom_append {b : UInt8} (hb : b.toNat < 0x80) (rest : List UInt8) :
    ∀ (data : List UInt8) (pending : Option Pending),
      decodeFrom pending (data ++ b :: rest) =
        decodeFrom pending data ++ decodeFrom none (b :: rest)
  | [], pending => by
      show (step pending b.toNat).2 ++ decodeFrom (step pending b.toNat).1 rest =
        flush pending ++ ((step none b.toNat).2 ++ decodeFrom (step none b.toNat).1 rest)
      rw [step_ascii pending hb, step_ascii none hb]
      simp [flush]
  | a :: data, pending => by
      show (step pending a.toNat).2 ++ decodeFrom _ (data ++ b :: rest) =
        (step pending a.toNat).2 ++ decodeFrom _ data ++ _
      rw [decodeFrom_append hb rest data, List.append_assoc]

end Utf8

theorem toNat_asciiByte {c : Char} (hc : c.toNat < 0x80) : (UInt8.ofNat c.toNat).toNat = c.toNat :=
  Nat.mod_eq_of_lt (by omega)

theorem decode_asciiBytes : ∀ {text : List Char}, (∀ c ∈ text, c.toNat < 0x80) →
    decode (asciiBytes text) = text
  | [], _ => rfl
  | c :: text, h => by
      have hc : c.toNat < 0x80 := h c (List.mem_cons_self ..)
      have hrest := decode_asciiBytes fun d hd => h d (List.mem_cons_of_mem _ hd)
      show (Utf8.step none (UInt8.ofNat c.toNat).toNat).2 ++ Utf8.decodeFrom _ (asciiBytes text) = _
      rw [toNat_asciiByte hc, Utf8.step_ascii none hc]
      simpa [Utf8.flush, decode] using hrest

/-- A text in ASCII is decoded on its own, whatever stands before it. -/
theorem decode_append_asciiBytes (data : List UInt8) {text : List Char}
    (h : ∀ c ∈ text, c.toNat < 0x80) : decode (data ++ asciiBytes text) = decode data ++ text := by
  cases text with
  | nil => simp [asciiBytes]
  | cons c rest =>
      have hc : c.toNat < 0x80 := h c (List.mem_cons_self ..)
      conv_rhs => rw [← decode_asciiBytes h]
      exact Utf8.decodeFrom_append (by rw [toNat_asciiByte hc]; exact hc) _ data none

/-- A character that is cut into two pieces becomes two replacements. -/
example : decode ([0xC3, 0xA9] : List UInt8) = ['é'] ∧
    decode ([0xC3] : List UInt8) ++ decode ([0xA9] : List UInt8) =
      [Utf8.replacement, Utf8.replacement] := by decide

end Py
