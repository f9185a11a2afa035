import QueryGateway.Proofs.Text.Utf8

/-!
# Nothing but UTF-8 is decoded

Bytes that are decoded to a text are the bytes that are written for it.  Inside
a character, the reader lets through only what ends the character that was
begun: `Completes` says so of the bytes that are still owed.
-/

namespace QueryGateway.Utf8

theorem eq_toUInt8
    {byte : UInt8}
    {code : Nat}
    (same : byte.toNat = code) :
    byte = code.toUInt8 := by
  rw [← same]
  simp

theorem toNat_ofNat_of_valid
    {code : Nat}
    (valid : code < 0xD800 ∨ (0xDFFF < code ∧ code < 0x110000)) :
    (Char.ofNat code).toNat = code := by
  have isValid : code.isValidChar := valid
  rw [Char.ofNat, dif_pos isValid]
  rfl

/--
Continuation bytes within their ranges end the character that other bytes have
begun, and all of them together are its bytes.
-/
def Completes : Nat → UInt8 → UInt8 → Nat → Bytes → Prop
  | 0, low, high, value, begun =>
      ∀ byte, low ≤ byte → byte ≤ high →
        begun ++ [byte] = encodeChar (Char.ofNat (value * 0x40 + (byte.toNat - 0x80)))
  | owed + 1, low, high, value, begun =>
      ∀ byte, low ≤ byte → byte ≤ high →
        Completes owed 0x80 0xBF (value * 0x40 + (byte.toNat - 0x80)) (begun ++ [byte])

theorem completes_two
    {byte : UInt8}
    (above : 0xC2 ≤ byte.toNat)
    (below : byte.toNat < 0xE0) :
    Completes 0 0x80 0xBF (byte.toNat - 0xC0) [byte] := by
  intro last isFrom isTo
  have lastFrom : 0x80 ≤ last.toNat := isFrom
  have lastTo : last.toNat ≤ 0xBF := isTo
  rw [encodeChar, toNat_ofNat_of_valid (by omega)]
  rw [if_neg (by omega), if_pos (by omega), ← eq_toUInt8 (show byte.toNat = _ by omega),
    ← eq_toUInt8 (show last.toNat = _ by omega)]
  rfl

theorem completes_three
    {byte : UInt8}
    (above : 0xE0 ≤ byte.toNat)
    (below : byte.toNat < 0xF0) :
    Completes 1
      (if byte.toNat = 0xE0 then 0xA0 else 0x80)
      (if byte.toNat = 0xED then 0x9F else 0xBF)
      (byte.toNat - 0xE0) [byte] := by
  intro middle middleFrom middleTo last isFrom isTo
  have lastFrom : 0x80 ≤ last.toNat := isFrom
  have lastTo : last.toNat ≤ 0xBF := isTo
  have low : 0x80 ≤ middle.toNat ∧ (byte.toNat = 0xE0 → 0xA0 ≤ middle.toNat) := by
    split_ifs at middleFrom with isLeast
    · have from' : 0xA0 ≤ middle.toNat := middleFrom
      omega
    · have from' : 0x80 ≤ middle.toNat := middleFrom
      omega
  have high : middle.toNat ≤ 0xBF ∧ (byte.toNat = 0xED → middle.toNat ≤ 0x9F) := by
    split_ifs at middleTo with isSurrogate
    · have to' : middle.toNat ≤ 0x9F := middleTo
      omega
    · have to' : middle.toNat ≤ 0xBF := middleTo
      omega
  rw [encodeChar, toNat_ofNat_of_valid (by omega)]
  rw [if_neg (by omega), if_neg (by omega), if_pos (by omega),
    ← eq_toUInt8 (show byte.toNat = _ by omega), ← eq_toUInt8 (show middle.toNat = _ by omega),
    ← eq_toUInt8 (show last.toNat = _ by omega)]
  rfl

theorem completes_four
    {byte : UInt8}
    (above : 0xF0 ≤ byte.toNat)
    (below : byte.toNat < 0xF5) :
    Completes 2
      (if byte.toNat = 0xF0 then 0x90 else 0x80)
      (if byte.toNat = 0xF4 then 0x8F else 0xBF)
      (byte.toNat - 0xF0) [byte] := by
  intro second secondFrom secondTo third thirdIsFrom thirdIsTo last isFrom isTo
  have lastFrom : 0x80 ≤ last.toNat := isFrom
  have lastTo : last.toNat ≤ 0xBF := isTo
  have thirdFrom : 0x80 ≤ third.toNat := thirdIsFrom
  have thirdTo : third.toNat ≤ 0xBF := thirdIsTo
  have low : 0x80 ≤ second.toNat ∧ (byte.toNat = 0xF0 → 0x90 ≤ second.toNat) := by
    split_ifs at secondFrom with isLeast
    · have from' : 0x90 ≤ second.toNat := secondFrom
      omega
    · have from' : 0x80 ≤ second.toNat := secondFrom
      omega
  have high : second.toNat ≤ 0xBF ∧ (byte.toNat = 0xF4 → second.toNat ≤ 0x8F) := by
    split_ifs at secondTo with isGreatest
    · have to' : second.toNat ≤ 0x8F := secondTo
      omega
    · have to' : second.toNat ≤ 0xBF := secondTo
      omega
  rw [encodeChar, toNat_ofNat_of_valid (by omega)]
  rw [if_neg (by omega), if_neg (by omega), if_neg (by omega),
    ← eq_toUInt8 (show byte.toNat = _ by omega), ← eq_toUInt8 (show second.toNat = _ by omega),
    ← eq_toUInt8 (show third.toNat = _ by omega), ← eq_toUInt8 (show last.toNat = _ by omega)]
  rfl

/-- A byte between characters is a character, begins one, or does neither. -/
theorem start_cases
    (byte : UInt8) :
    (∃ yielded next, start byte = (none :: yielded, next)) ∨
      (∃ character, start byte = ([some character], .rest) ∧ [byte] = encodeChar character) ∨
      ∃ owed low high value, start byte = ([], .inside owed low high value) ∧
        Completes owed low high value [byte] := by
  by_cases one : byte.toNat < 0x80
  · refine .inr (.inl ⟨_, start_one one, ?_⟩)
    rw [encodeChar, toNat_ofNat_of_valid (by omega)]
    simp [one]
  by_cases two : 0xC2 ≤ byte.toNat ∧ byte.toNat < 0xE0
  · have begins := start_two byte two.1 two.2
    exact .inr (.inr ⟨_, _, _, _, begins, completes_two two.1 two.2⟩)
  by_cases three : 0xE0 ≤ byte.toNat ∧ byte.toNat < 0xF0
  · have begins := start_three byte three.1 three.2
    exact .inr (.inr ⟨_, _, _, _, begins, completes_three three.1 three.2⟩)
  by_cases four : 0xF0 ≤ byte.toNat ∧ byte.toNat < 0xF5
  · have begins := start_four byte four.1 four.2
    exact .inr (.inr ⟨_, _, _, _, begins, completes_four four.1 four.2⟩)
  refine .inl ⟨[], .rest, ?_⟩
  simp only [start, UInt8.lt_iff_toNat_lt, UInt8.reduceToNat, ← UInt8.toNat_inj]
  split_ifs
  all_goals first | omega | rfl

/-- What the characters that are read were read from. -/
theorem eq_encode_of_scalarsFrom
    {bytes : Bytes}
    {text : List Char} :
    (scalarsFrom .rest bytes = text.map some → bytes = encode text) ∧
      ∀ owed low high value begun, Completes owed low high value begun →
        scalarsFrom (.inside owed low high value) bytes = text.map some →
          begun ++ bytes = encode text := by
  induction bytes generalizing text with
  | nil =>
      constructor
      · intro read
        cases text with
        | nil => rfl
        | cons => cases read
      · intro _ _ _ _ _ _ read
        cases text with
        | nil => cases read
        | cons => cases read
  | cons byte bytes induction =>
      constructor
      · intro read
        rw [scalarsFrom_cons] at read
        rcases start_cases byte with ⟨yielded, next, isStart⟩ | ⟨character, isStart, isEncoded⟩ |
          ⟨owed, low, high, value, isStart, completes⟩
        · simp only [step, isStart, List.cons_append] at read
          cases text with
          | nil => cases read
          | cons => cases read
        · simp only [step, isStart, List.singleton_append] at read
          cases text with
          | nil => cases read
          | cons first text =>
              rcases List.cons.inj read with ⟨same, further⟩
              rw [← Option.some.inj same]
              have others := induction.1 further
              change [byte] ++ bytes = encodeChar character ++ encode text
              rw [isEncoded, others]
        · simp only [step, isStart, List.nil_append] at read
          exact induction.2 owed low high value [byte] completes read
      · intro owed low high value begun completes read
        rw [scalarsFrom_cons] at read
        by_cases inRange : low ≤ byte ∧ byte ≤ high
        · cases owed with
          | zero =>
              have ends := completes byte inRange.1 inRange.2
              simp only [step, if_pos inRange, List.singleton_append] at read
              cases text with
              | nil => cases read
              | cons first text =>
                  rcases List.cons.inj read with ⟨same, further⟩
                  have others := induction.1 further
                  rw [Option.some.inj same] at ends
                  change begun ++ ([byte] ++ bytes) = encodeChar first ++ encode text
                  rw [← List.append_assoc, ends, others]
          | succ owed =>
              simp only [step, if_pos inRange, List.nil_append] at read
              have whole := induction.2 _ _ _ _ _ (completes byte inRange.1 inRange.2) read
              rw [← whole, List.append_assoc]
              rfl
        · simp only [step, if_neg inRange, List.cons_append] at read
          cases text with
          | nil => cases read
          | cons => cases read

theorem eq_map_some_of_mapM
    {options : List (Option Char)}
    {text : List Char}
    (all : options.mapM id = some text) :
    options = text.map some := by
  induction options generalizing text with
  | nil =>
      cases all
      rfl
  | cons first options induction =>
      cases first with
      | none => simp at all
      | some character =>
          simp only [List.mapM_cons, id, Option.pure_def, Option.bind_eq_bind, Option.bind_some,
            Option.bind_eq_some_iff, Option.some.injEq] at all
          rcases all with ⟨others, areOthers, rfl⟩
          rw [induction areOthers]
          rfl

/-- Bytes are decoded to a text exactly if they are what is written for it. -/
theorem decode?_eq_some_iff
    {bytes : Bytes}
    {text : List Char} :
    decode? bytes = some text ↔ bytes = encode text := by
  constructor
  · intro decoded
    apply eq_encode_of_scalarsFrom.1
    exact eq_map_some_of_mapM decoded
  · rintro rfl
    exact decode?_encode text

end QueryGateway.Utf8
