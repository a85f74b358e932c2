import PulseAgent.Go.JsonClean
import PulseAgent.Contract.Decode

/-!
# Decoded contracts are clean

Whatever document a contract value was decoded from, its strings are valid UTF-8.
-/

namespace PulseAgent.Contract

open Go Go.Json

theorem norm_of_content {α : Type} {c : Codec α} (hc : c.Cleans) (hzero : c.norm c.zero = c.zero)
    {document : Bytes} {a : α} (h : content c document = some a) : c.norm a = a := by
  unfold content scanDocument at h
  split at h
  case h_1 => cases h
  case h_2 v hscan =>
    have hv : v.clean = v := by
      split at hscan
      case h_1 => cases hscan
      case h_2 w rest hparse =>
        have hw := (parsesClean _).value _ _ _ hparse
        split at hscan
        case isTrue =>
          split at hscan
          case h_1 =>
            cases hscan
            exact hw
          case h_2 => split_ifs at hscan
        case isFalse => cases hscan
    unfold Codec.read at h
    split at h
    case h_1 x hdecode =>
      cases h
      exact hc true v c.zero a none hv hzero hdecode
    case h_2 => cases h
    case h_3 => cases h

theorem cleans_evidencePolicy : EvidencePolicy.codec.Cleans := by
  refine Codec.cleans_struct ?_
  simp only [EvidencePolicy.fields, List.forall_mem_cons, List.not_mem_nil, false_imp_iff,
    implies_true, and_true]
  exact ⟨.of Codec.cleans_string (fun _ _ => rfl) fun _ => rfl,
    .plain (fun _ => rfl) (fun _ _ => rfl) fun _ => rfl⟩

theorem cleans_probeRule : ProbeRule.codec.Cleans := by
  have hseverity : Severity.codec.Cleans := Codec.cleans_named Severity.text_ofText
  refine Codec.cleans_struct ?_
  simp only [ProbeRule.fields, List.forall_mem_cons, List.not_mem_nil, false_imp_iff,
    implies_true, and_true]
  refine ⟨.of Codec.cleans_string (fun _ _ => rfl) fun _ => rfl,
    .of Codec.cleans_string (fun _ _ => rfl) fun _ => rfl, ?_, ?_, ?_, ?_, ?_, ?_,
    .of hseverity (fun _ _ => rfl) fun _ => rfl⟩
  all_goals exact .plain (fun _ => rfl) (fun _ _ => rfl) fun _ => rfl

theorem cleans_serviceTarget : ServiceTarget.codec.Cleans := by
  refine Codec.cleans_struct ?_
  simp only [ServiceTarget.fields, List.forall_mem_cons, List.not_mem_nil, false_imp_iff,
    implies_true, and_true]
  refine ⟨?_, ?_, ?_, ?_,
    .of (Codec.cleans_slice cleans_probeRule rfl) (fun _ _ => rfl) fun _ => rfl,
    .of cleans_evidencePolicy (fun _ _ => rfl) fun _ => rfl,
    .plain (fun _ => rfl) (fun _ _ => rfl) fun _ => rfl,
    .plain (fun _ => rfl) (fun _ _ => rfl) fun _ => rfl⟩
  all_goals exact .of Codec.cleans_string (fun _ _ => rfl) fun _ => rfl

theorem cleans_incident : Incident.codec.Cleans := by
  have hstate : IncidentState.codec.Cleans := Codec.cleans_named IncidentState.text_ofText
  have hseverity : Severity.codec.Cleans := Codec.cleans_named Severity.text_ofText
  refine Codec.cleans_struct ?_
  simp only [Incident.fields, List.forall_mem_cons, List.not_mem_nil, false_imp_iff,
    implies_true, and_true]
  refine ⟨?_, ?_, ?_, ?_,
    .of (Codec.cleans_slice Codec.cleans_string rfl) (fun _ _ => rfl) fun _ => rfl,
    .of hstate (fun _ _ => rfl) fun _ => rfl, .of hseverity (fun _ _ => rfl) fun _ => rfl,
    .plain (fun _ => rfl) (fun _ _ => rfl) fun _ => rfl,
    .omitEmpty Codec.cleans_string (fun _ _ => rfl) fun _ => rfl,
    .omitEmpty Codec.cleans_string (fun _ _ => rfl) fun _ => rfl,
    .plain (fun _ => rfl) (fun _ _ => rfl) fun _ => rfl⟩
  all_goals exact .of Codec.cleans_string (fun _ _ => rfl) fun _ => rfl

theorem cleans_typedAction : TypedAction.codec.Cleans := by
  have htype : ActionType.codec.Cleans := Codec.cleans_named ActionType.text_ofText
  refine Codec.cleans_struct ?_
  simp only [TypedAction.fields, List.forall_mem_cons, List.not_mem_nil, false_imp_iff,
    implies_true, and_true]
  exact ⟨.of htype (fun _ _ => rfl) fun _ => rfl,
    .of Codec.cleans_string (fun _ _ => rfl) fun _ => rfl,
    .plain (fun _ => rfl) (fun _ _ => rfl) fun _ => rfl,
    .plain (fun _ => rfl) (fun _ _ => rfl) fun _ => rfl⟩

theorem cleans_recoveryCommand : RecoveryCommand.codec.Cleans := by
  have hrisk : RiskTier.codec.Cleans := Codec.cleans_named RiskTier.text_ofText
  have hstate : RecoveryCommandState.codec.Cleans :=
    Codec.cleans_named RecoveryCommandState.text_ofText
  refine Codec.cleans_struct ?_
  simp only [RecoveryCommand.fields, List.forall_mem_cons, List.not_mem_nil, false_imp_iff,
    implies_true, and_true]
  refine ⟨?_, ?_, ?_, ?_, ?_, ?_, .plain (fun _ => rfl) (fun _ _ => rfl) fun _ => rfl,
    .of hrisk (fun _ _ => rfl) fun _ => rfl,
    .omitEmpty Codec.cleans_string (fun _ _ => rfl) fun _ => rfl,
    .plain (fun _ => rfl) (fun _ _ => rfl) fun _ => rfl,
    .plain (fun _ => rfl) (fun _ _ => rfl) fun _ => rfl, ?_,
    .of hstate (fun _ _ => rfl) fun _ => rfl⟩
  all_goals exact .of Codec.cleans_string (fun _ _ => rfl) fun _ => rfl

end PulseAgent.Contract
