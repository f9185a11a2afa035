import Mathlib.Tactic.SplitIfs
import QueryGateway.Text.Bytes

/-!
# UTF-8 is read as it is written

The bytes that `Utf8.encode` writes for a text are decoded to that text.  The
reader takes one byte at a time, so the argument goes along the bytes of one
character: the lead byte fixes how many bytes are owed and the range of the
next one, and every byte that the writer puts there lies in that range.

Characters below `0x80` are written as one byte, and no other character is
written with such a byte.  Marks made of ASCII characters can therefore be
looked for in the bytes of a text as well as in the text.
-/

namespace QueryGateway

namespace Utf8

theorem toNat_toUInt8
    {code : Nat}
    (small : code < 256) :
    code.toUInt8.toNat = code := by
  simpa using Nat.mod_eq_of_lt small

/-! ## Lead bytes -/

theorem start_one
    {byte : UInt8}
    (small : byte.toNat < 0x80) :
    start byte = ([some (Char.ofNat byte.toNat)], .rest) := by
  have isAscii : byte < 0x80 := small
  simp [start, isAscii]

theorem start_two
    (byte : UInt8)
    (above : 0xC2 ≤ byte.toNat)
    (below : byte.toNat < 0xE0) :
    start byte = ([], .inside 0 0x80 0xBF (byte.toNat - 0xC0)) := by
  simp only [start, UInt8.lt_iff_toNat_lt, UInt8.reduceToNat]
  split_ifs
  all_goals first | omega | rfl

/-- The lead byte of three narrows the range of the next one at both ends. -/
theorem start_three
    (byte : UInt8)
    (above : 0xE0 ≤ byte.toNat)
    (below : byte.toNat < 0xF0) :
    start byte =
      ([], .inside 1
        (if byte.toNat = 0xE0 then 0xA0 else 0x80)
        (if byte.toNat = 0xED then 0x9F else 0xBF)
        (byte.toNat - 0xE0)) := by
  simp only [start, UInt8.lt_iff_toNat_lt, ← UInt8.toNat_inj, UInt8.reduceToNat]
  split_ifs
  all_goals first | omega | simp_all

theorem start_four
    (byte : UInt8)
    (above : 0xF0 ≤ byte.toNat)
    (below : byte.toNat < 0xF5) :
    start byte =
      ([], .inside 2
        (if byte.toNat = 0xF0 then 0x90 else 0x80)
        (if byte.toNat = 0xF4 then 0x8F else 0xBF)
        (byte.toNat - 0xF0)) := by
  simp only [start, UInt8.lt_iff_toNat_lt, ← UInt8.toNat_inj, UInt8.reduceToNat]
  split_ifs
  all_goals first | omega | simp_all

/-! ## Continuation bytes -/

theorem step_last
    {low high byte : UInt8}
    {value : Nat}
    (above : low.toNat ≤ byte.toNat)
    (below : byte.toNat ≤ high.toNat) :
    step (.inside 0 low high value) byte =
      ([some (Char.ofNat (value * 0x40 + (byte.toNat - 0x80)))], .rest) := by
  have inRange : low ≤ byte ∧ byte ≤ high := ⟨above, below⟩
  simp [step, inRange]

theorem step_more
    {owed : Nat}
    {low high byte : UInt8}
    {value : Nat}
    (above : low.toNat ≤ byte.toNat)
    (below : byte.toNat ≤ high.toNat) :
    step (.inside (owed + 1) low high value) byte =
      ([], .inside owed 0x80 0xBF (value * 0x40 + (byte.toNat - 0x80))) := by
  have inRange : low ≤ byte ∧ byte ≤ high := ⟨above, below⟩
  simp [step, inRange]

/-! ## Whole characters -/

theorem scalarsFrom_cons
    (reader : Reader)
    (byte : UInt8)
    (bytes : Bytes) :
    scalarsFrom reader (byte :: bytes) =
      (step reader byte).1 ++ scalarsFrom (step reader byte).2 bytes := by
  cases reader <;> rfl

/-- The bytes of a character are read as that character, whatever comes behind them. -/
theorem scalarsFrom_encodeChar
    (character : Char)
    (rest : Bytes) :
    scalarsFrom .rest (encodeChar character ++ rest) =
      some character :: scalarsFrom .rest rest := by
  have valid : character.toNat < 0xD800 ∨
      (0xDFFF < character.toNat ∧ character.toNat < 0x110000) :=
    character.valid
  have restored : ∀ {code}, code = character.toNat → Char.ofNat code = character := by
    rintro _ rfl
    exact Char.ofNat_toNat character
  simp only [encodeChar]
  generalize character.toNat = code at valid restored
  split_ifs with one two three
  · have lead := toNat_toUInt8 (show code < 256 by omega)
    have begun := start_one (lead.symm ▸ one)
    rw [lead, restored rfl] at begun
    simp [scalarsFrom_cons, step, begun]
  · have lead := toNat_toUInt8 (show 0xC0 + code / 0x40 < 256 by omega)
    have last := toNat_toUInt8 (show 0x80 + code % 0x40 < 256 by omega)
    have begun := start_two (0xC0 + code / 0x40).toUInt8 (by omega) (by omega)
    have joined : (0xC0 + code / 0x40 - 0xC0) * 0x40 + (0x80 + code % 0x40 - 0x80) = code := by
      omega
    rw [lead] at begun
    simp only [List.cons_append, List.nil_append, scalarsFrom_cons, step.eq_1, begun]
    rw [step_last (by rw [last]; simp) (by rw [last]; simp; omega), last, restored joined]
    rfl
  · have lead := toNat_toUInt8 (show 0xE0 + code / 0x1000 < 256 by omega)
    have middle := toNat_toUInt8 (show 0x80 + code / 0x40 % 0x40 < 256 by omega)
    have last := toNat_toUInt8 (show 0x80 + code % 0x40 < 256 by omega)
    have begun := start_three (0xE0 + code / 0x1000).toUInt8 (by omega) (by omega)
    have joined : ((0xE0 + code / 0x1000 - 0xE0) * 0x40 + (0x80 + code / 0x40 % 0x40 - 0x80)) *
        0x40 + (0x80 + code % 0x40 - 0x80) = code := by
      omega
    rw [lead] at begun
    simp only [List.cons_append, List.nil_append, scalarsFrom_cons, step.eq_1, begun]
    -- the narrowed range leaves out overlong forms and surrogates
    have above : (if 0xE0 + code / 0x1000 = 0xE0 then 0xA0 else 0x80 : UInt8).toNat ≤
        (0x80 + code / 0x40 % 0x40).toUInt8.toNat := by
      rw [middle]
      split_ifs
      · simp only [UInt8.reduceToNat]
        omega
      · simp
    have below : (0x80 + code / 0x40 % 0x40).toUInt8.toNat ≤
        (if 0xE0 + code / 0x1000 = 0xED then 0x9F else 0xBF : UInt8).toNat := by
      rw [middle]
      split_ifs
      · simp only [UInt8.reduceToNat]
        omega
      · simp only [UInt8.reduceToNat]
        omega
    rw [step_more above below, step_last (by rw [last]; simp) (by rw [last]; simp; omega), middle,
      last, restored joined]
    rfl
  · have lead := toNat_toUInt8 (show 0xF0 + code / 0x40000 < 256 by omega)
    have second := toNat_toUInt8 (show 0x80 + code / 0x1000 % 0x40 < 256 by omega)
    have third := toNat_toUInt8 (show 0x80 + code / 0x40 % 0x40 < 256 by omega)
    have last := toNat_toUInt8 (show 0x80 + code % 0x40 < 256 by omega)
    have begun := start_four (0xF0 + code / 0x40000).toUInt8 (by omega) (by omega)
    have joined : (((0xF0 + code / 0x40000 - 0xF0) * 0x40 +
        (0x80 + code / 0x1000 % 0x40 - 0x80)) * 0x40 + (0x80 + code / 0x40 % 0x40 - 0x80)) *
        0x40 + (0x80 + code % 0x40 - 0x80) = code := by
      omega
    rw [lead] at begun
    simp only [List.cons_append, List.nil_append, scalarsFrom_cons, step.eq_1, begun]
    -- the narrowed range leaves out overlong forms and what is above `U+10FFFF`
    have above : (if 0xF0 + code / 0x40000 = 0xF0 then 0x90 else 0x80 : UInt8).toNat ≤
        (0x80 + code / 0x1000 % 0x40).toUInt8.toNat := by
      rw [second]
      split_ifs
      · simp only [UInt8.reduceToNat]
        omega
      · simp
    have below : (0x80 + code / 0x1000 % 0x40).toUInt8.toNat ≤
        (if 0xF0 + code / 0x40000 = 0xF4 then 0x8F else 0xBF : UInt8).toNat := by
      rw [second]
      split_ifs
      · simp only [UInt8.reduceToNat]
        omega
      · simp only [UInt8.reduceToNat]
        omega
    rw [step_more above below, step_more (by rw [third]; simp) (by rw [third]; simp; omega),
      step_last (by rw [last]; simp) (by rw [last]; simp; omega), second, third, last,
      restored joined]
    rfl

theorem scalars_encode
    (text : List Char) :
    scalars (encode text) = text.map some := by
  induction text with
  | nil => rfl
  | cons character text induction =>
      have split : encode (character :: text) = encodeChar character ++ encode text := rfl
      rw [split, scalars, scalarsFrom_encodeChar]
      exact congrArg (some character :: ·) induction

/-- Text that is written is read back. -/
@[simp]
theorem decode?_encode
    (text : List Char) :
    decode? (encode text) = some text := by
  rw [decode?, scalars_encode]
  induction text with
  | nil => rfl
  | cons character text induction => simp_all

/-- A byte below `0x80` stands for nothing but the character of that code. -/
theorem toNat_of_mem_encodeChar
    {character : Char}
    {byte : UInt8}
    (member : byte ∈ encodeChar character)
    (ascii : byte.toNat < 0x80) :
    character.toNat = byte.toNat := by
  have valid : character.toNat < 0xD800 ∨
      (0xDFFF < character.toNat ∧ character.toNat < 0x110000) :=
    character.valid
  simp only [encodeChar] at member
  split_ifs at member
  · have equality := List.mem_singleton.mp member
    rw [equality, toNat_toUInt8 (by omega)]
  all_goals
    exfalso
    simp only [List.mem_cons, List.not_mem_nil, or_false] at member
  · rcases member with rfl | rfl <;>
      · rw [toNat_toUInt8 (by omega)] at ascii
        omega
  · rcases member with rfl | rfl | rfl <;>
      · rw [toNat_toUInt8 (by omega)] at ascii
        omega
  · rcases member with rfl | rfl | rfl | rfl <;>
      · rw [toNat_toUInt8 (by omega)] at ascii
        omega

end Utf8

namespace Bytes

@[simp]
theorem toString?_ofString
    (text : String) :
    (ofString text).toString? = some text := by
  simp [toString?, ofString]

/-- An ASCII byte in the bytes of a text comes from a character of that code. -/
theorem exists_mem_of_mem_ofString
    {text : String}
    {byte : UInt8}
    (member : byte ∈ ofString text)
    (ascii : byte.toNat < 0x80) :
    ∃ character ∈ text.toList, character.toNat = byte.toNat := by
  obtain ⟨character, inText, inBytes⟩ := List.mem_flatMap.mp member
  exact ⟨character, inText, Utf8.toNat_of_mem_encodeChar inBytes ascii⟩

/-- The byte of an ASCII character stands in the bytes of a text only if the character does. -/
theorem not_mem_ofString
    {text : String}
    (byte : UInt8)
    (ascii : byte.toNat < 0x80)
    (absent : Char.ofNat byte.toNat ∉ text.toList) :
    byte ∉ ofString text := by
  intro member
  obtain ⟨character, inText, sameCode⟩ := exists_mem_of_mem_ofString member ascii
  rw [← sameCode, Char.ofNat_toNat] at absent
  exact absent inText

theorem ofString_ne_nil
    {text : String}
    (nonempty : text ≠ "") :
    ofString text ≠ [] := by
  intro empty
  have readBack := toString?_ofString text
  rw [empty] at readBack
  exact nonempty (Option.some.inj readBack).symm

end Bytes

end QueryGateway
