import QueryGateway.Proofs.Pattern.Anchoring
import QueryGateway.Routing.Mapping

/-!
# Whole addresses

A mapping whose ingress can be read as a pattern alone applies to the addresses
that this pattern matches as a whole.  Alternatives, groups, flags and anchors
inside the ingress make no difference.

An ingress that cannot be read alone may still be compiled, since only the
anchored text is read.  If it closes the group it is put into and opens it
again, the anchors no longer hold for each of its alternatives.
-/

namespace QueryGateway.Routing

open QueryGateway.Pattern

theorem toList_anchored
    (ingress : String) :
    (anchored ingress).toList = Reader.anchor ingress.toList := by
  simp [anchored, Reader.anchor]

namespace Mapping

theorem compile_eq_ok_iff
    {id ingress egress : String}
    {mapping : Mapping} :
    Mapping.compile id ingress egress = .ok mapping ↔
      ∃ pattern, Regex.ofString? (anchored ingress) = some pattern ∧
        mapping = ⟨id, ingress, egress, pattern⟩ := by
  rw [Mapping.compile, compilePattern]
  cases Regex.ofString? (anchored ingress) with
  | none => simp [bind, Except.bind]
  | some pattern => simp [bind, Except.bind, pure, Except.pure, eq_comm]

/--
A mapping applies exactly to the addresses that its ingress matches as a whole,
provided that the ingress can be read alone.
-/
theorem applies_to_whole_addresses
    {id ingress egress : String}
    {mapping : Mapping}
    (canBeRead : (Reader.read? ingress.toList).isSome)
    (compiles : Mapping.compile id ingress egress = .ok mapping) :
    ∃ own, Regex.ofString? ingress = some own ∧
      ∀ address, (mapping.egressFor? address).isSome ↔ own.MatchesWhole address := by
  obtain ⟨pattern, isPattern, rfl⟩ := compile_eq_ok_iff.mp compiles
  obtain ⟨own, isOwn, applies⟩ :=
    Regex.search_anchor (toList_anchored ingress) canBeRead isPattern
  refine ⟨own, isOwn, fun address => ?_⟩
  rw [Mapping.egressFor?, Option.isSome_map]
  exact applies address

/-! ## Cats and dogs -/

namespace PetDoor

def pets : Mapping :=
  (Mapping.compile "pets" "/cat|/dog" "/pets").toOption.get (by decide +kernel)

theorem pets_compile :
    Mapping.compile "pets" "/cat|/dog" "/pets" = .ok pets := by
  rw [compile_eq_ok_iff]
  exact ⟨pets.pattern, by decide +kernel, by decide +kernel⟩

theorem dog_is_let_in :
    (Reader.read? "/cat|/dog".toList).isSome ∧
      Mapping.compile "pets" "/cat|/dog" "/pets" = .ok pets ∧
      ∃ own, Regex.ofString? "/cat|/dog" = some own ∧
        own.MatchesWhole "/dog" ∧ ¬ own.MatchesWhole "/dogs" := by
  have canBeRead : (Reader.read? "/cat|/dog".toList).isSome := by decide +kernel
  obtain ⟨own, isOwn, applies⟩ := applies_to_whole_addresses canBeRead pets_compile
  have dogApplies : (pets.egressFor? "/dog").isSome := by decide +kernel
  have dogsDoNot : ¬ (pets.egressFor? "/dogs").isSome := by decide +kernel
  exact ⟨canBeRead, pets_compile, own, isOwn, (applies _).mp dogApplies,
    fun dogsMatch => dogsDoNot ((applies _).mpr dogsMatch)⟩

/-- The ingress is no pattern alone.  Anchored, its first alternative may go on in any way. -/
def ajar : Mapping :=
  (Mapping.compile "pets" "/cat)|(/dog" "/pets").toOption.get (by decide +kernel)

theorem cattle_slips_in :
    Mapping.compile "pets" "/cat)|(/dog" "/pets" = .ok ajar ∧
      Regex.ofString? "/cat)|(/dog" = none ∧ (ajar.egressFor? "/cattle").isSome := by
  refine ⟨compile_eq_ok_iff.mpr ⟨ajar.pattern, ?_, ?_⟩, ?_, ?_⟩ <;> decide +kernel

end PetDoor

end Mapping

end QueryGateway.Routing
