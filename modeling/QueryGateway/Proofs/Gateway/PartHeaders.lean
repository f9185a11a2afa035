import QueryGateway.Gateway.HeaderRules
import QueryGateway.Proofs.Multipart.Framing

/-!
# The headers of a part are lines

The headers of a part come from a backend's answer.  Their names are header
names, and only readable values are taken over.  Neither holds a line end, and
a name holds no colon, so each header is one line and is read back as it is.
-/

namespace QueryGateway

namespace Message

/-- Are all names in some headers header names? -/
def Headers.AreNamed (headers : Headers) : Prop :=
  ∀ field ∈ headers.fields, headerName? field.1.toList = some field.1

instance (headers : Headers) : Decidable headers.AreNamed :=
  inferInstanceAs (Decidable (∀ field ∈ headers.fields, headerName? field.1.toList = some field.1))

theorem code_of_byte
    (byte : UInt8) :
    (Char.ofNat byte.toNat).toNat = byte.toNat := by
  have small := byte.toNat_lt
  have valid : byte.toNat.isValidChar := .inl (by omega)
  rw [Char.ofNat, dif_pos valid]
  rfl

/-- A readable text holds no control characters but tabs. -/
theorem not_mem_of_readable
    {value : Bytes}
    {text : String}
    (readable : readable? value = some text)
    {character : Char}
    (isControl : character.toNat < 0x20)
    (notTab : character.toNat ≠ 0x09) :
    character ∉ text.toList := by
  unfold readable? at readable
  split at readable
  · rename_i allReadable
    cases readable
    intro member
    rw [String.toList_ofList] at member
    obtain ⟨byte, inValue, rfl⟩ := List.mem_map.mp member
    have isReadable := List.all_eq_true.mp allReadable byte inValue
    rw [code_of_byte] at isControl notTab
    have notNine : byte ≠ 0x09 := fun same => notTab (same ▸ rfl)
    have notVisible : ¬ (0x20 ≤ byte) := Nat.not_le.mpr isControl
    simp [isReadableByte, notNine, notVisible] at isReadable
  · cases readable

theorem headerName_spec
    {name : String}
    (isName : headerName? name.toList = some name) :
    name ≠ "" ∧ ∀ character ∈ name.toList, isNameChar character = true := by
  unfold headerName? at isName
  split at isName
  · cases isName
  · rename_i wellFormed
    obtain ⟨nonempty, nameChars⟩ : name ≠ "" ∧ name.toList.all isNameChar = true := by
      simpa using wellFormed
    exact ⟨nonempty, List.all_eq_true.mp nameChars⟩

end Message

namespace Gateway

open Message Multipart

theorem isLine_of_readable
    {name : String}
    {value : Bytes}
    {text : String}
    (isName : headerName? name.toList = some name)
    (readable : readable? value = some text) :
    IsLine (name, text) := by
  obtain ⟨nonempty, nameChars⟩ := headerName_spec isName
  have absent : ∀ character, isNameChar character = false → character ∉ name.toList := by
    intro character notNameChar member
    rw [nameChars character member] at notNameChar
    exact Bool.noConfusion notNameChar
  exact {
    nonempty := nonempty
    noColon := absent _ (by decide)
    noReturn := ⟨absent _ (by decide), not_mem_of_readable readable (by decide) (by decide)⟩
    noFeed := ⟨absent _ (by decide), not_mem_of_readable readable (by decide) (by decide)⟩ }

theorem isLine_of_mem_partHeaders
    {headers : Headers}
    (named : headers.AreNamed)
    {header : String × String}
    (member : header ∈ partHeaders headers) :
    IsLine header := by
  rcases List.mem_append.mp member with own | added
  · obtain ⟨field, kept, readableField⟩ := List.mem_filterMap.mp own
    obtain ⟨text, readable, rfl⟩ := Option.map_eq_some_iff.mp readableField
    have inHeaders : field ∈ headers.fields :=
      (List.mem_filter.mp (List.mem_filter.mp kept).1).1
    exact isLine_of_readable (named field inHeaders) readable
  · split at added
    · exact (List.not_mem_nil added).elim
    · rw [List.mem_singleton.mp added]
      exact ⟨by decide, by decide, by decide, by decide⟩

end Gateway

end QueryGateway
