import PulseAgent.Contract.Codecs

/-!
# What the contracts' validations accept

Cleaning the strings of a valid value keeps it valid, since no text becomes empty by it.
-/

namespace PulseAgent.Contract

open Go Go.Json

theorem then_ok {x y : Except Error Unit} :
    (do x; y) = Except.ok () ↔ x = .ok () ∧ y = .ok () := by
  cases x with
  | error e => simp [bind, Except.bind]
  | ok u => simp [bind, Except.bind]

theorem validateVersion_ok {version : Bytes} :
    validateVersion version = .ok () ↔ version = schemaVersionV1 := by
  unfold validateVersion
  split <;> simp_all

theorem required_ok {name : String} {value : Bytes} :
    required name value = .ok () ↔ value ≠ [] := by
  unfold required
  split <;> simp_all

theorem check_ok {name : String} {ok : Bool} : check name ok = .ok () ↔ ok = true := by
  unfold check
  split <;> simp_all

theorem isOk_iff {x : Except Error Unit} : x.isOk = true ↔ x = .ok () := by
  cases x <;> simp [Except.isOk, Except.toBool]

theorem Incident.validate_ok {i : Incident} : i.validate = .ok () ↔
    i.schemaVersion = schemaVersionV1 ∧ i.incidentID ≠ [] ∧ i.targetID ≠ [] ∧
      (i.state.valid = true ∧ i.openedAt.isZero = false ∧ 0 < (elems i.ruleIDs).length ∧
        (elems i.ruleIDs).length ≤ maxReferenceCount) ∧
      i.state.terminal = !i.terminalAt.isZero := by
  unfold Incident.validate
  simp only [then_ok, validateVersion_ok, required_ok, check_ok, Bool.and_eq_true,
    Bool.not_eq_true', decide_eq_true_eq, beq_iff_eq, and_assoc]

theorem IncidentState.norm_of_valid {state : IncidentState} (h : state.valid = true) :
    IncidentState.codec.norm state = state := by
  cases state with
  | other => cases h
  | _ => rfl

theorem length_norm_slice {α : Type} {c : Codec α} (slice : Option (List α)) :
    (elems (c.slice.norm slice)).length = (elems slice).length := by
  cases slice with
  | none => rfl
  | some values => exact List.length_map _

theorem Incident.validate_norm {i : Incident} (h : i.validate = .ok ()) :
    (Incident.codec.norm i).validate = .ok () := by
  obtain ⟨hversion, hid, htarget, ⟨hstate, hopened, hpos, hle⟩, hterminal⟩ := validate_ok.mp h
  have hnorm : (Incident.codec.norm i).state = i.state := IncidentState.norm_of_valid hstate
  have hlength := length_norm_slice (c := .string) i.ruleIDs
  refine validate_ok.mpr ⟨?_, ?_, ?_, ⟨?_, hopened, ?_, ?_⟩, ?_⟩
  · change Utf8.toValidUTF8 i.schemaVersion = _
    rw [hversion]
    rfl
  · exact fun hnil => hid ((Utf8.toValidUTF8_eq_nil_iff _).mp hnil)
  · exact fun hnil => htarget ((Utf8.toValidUTF8_eq_nil_iff _).mp hnil)
  · rw [hnorm]
    exact hstate
  · exact hlength.symm ▸ hpos
  · exact hlength.symm ▸ hle
  · rw [hnorm]
    exact hterminal

end PulseAgent.Contract
