import PulseAgent.Evidence.Content
import PulseAgent.Redaction.Joint

/-!
# When evidence is free of sensitive values

`collect` checks each value by itself, and the evidence puts names, values and lines together: a
label at the end of a value takes the name of the next field for what it labels.
-/

namespace PulseAgent.Evidence

open Go Contract Redaction

/-- Nothing sensitive in the text, nor in any of its lines. -/
def Clean (text : Bytes) : Prop :=
  containsSensitive text = false ∧ ∀ line ∈ text.splitOn 10, containsSensitive line = false

instance instDecidableClean (text : Bytes) : Decidable (Clean text) :=
  inferInstanceAs (Decidable (_ ∧ _))

/-! ## Joining texts -/

theorem join_append_join (sep : Bytes) (before : List Bytes) (last first : Bytes)
    (after : List Bytes) :
    Strings.join sep (before ++ [last]) ++ Strings.join sep (first :: after) =
      Strings.join sep (before ++ (last ++ first) :: after) := by
  induction before with
  | nil => cases after <;> simp [Strings.join]
  | cons part before ih =>
    cases before <;> simp_all [Strings.join]

theorem splitOn_append {a b last first : Bytes} {before after : List Bytes}
    (ha : a.splitOn 10 = before ++ [last]) (hb : b.splitOn 10 = first :: after) :
    (a ++ b).splitOn 10 = before ++ (last ++ first) :: after := by
  have hlines : ∀ line ∈ before ++ (last ++ first) :: after, (10 : UInt8) ∉ line := by
    have hone : ∀ line ∈ a.splitOn 10, (10 : UInt8) ∉ line := fun _ =>
      Strings.not_mem_of_mem_splitOn
    have htwo : ∀ line ∈ b.splitOn 10, (10 : UInt8) ∉ line := fun _ =>
      Strings.not_mem_of_mem_splitOn
    rw [ha, List.forall_mem_append, List.forall_mem_singleton] at hone
    rw [hb, List.forall_mem_cons] at htwo
    rw [List.forall_mem_append, List.forall_mem_cons, List.mem_append, not_or]
    exact ⟨hone.1, ⟨hone.2, htwo.1⟩, htwo.2⟩
  rw [← Strings.splitOn_join (by simp) hlines, ← join_append_join, ← ha, ← hb,
    Strings.join_splitOn, Strings.join_splitOn]

theorem splitOn_of_not_mem {text : Bytes} (h : (10 : UInt8) ∉ text) : text.splitOn 10 = [text] :=
  Strings.splitOn_join (List.cons_ne_nil text []) (List.forall_mem_singleton.mpr h)

theorem named_first {text first : Bytes} {after : List Bytes} (h : Named text)
    (hlines : text.splitOn 10 = first :: after) : Named first := by
  obtain ⟨name, value, hname, rfl⟩ := h
  have hplain : (10 : UInt8) ∉ name ++ lit "=" := by
    intro hmem
    rcases List.mem_append.mp hmem with hmem | hmem
    · have hall := List.all_eq_true.mp ((Bool.and_eq_true _ _).mp hname).2 10 hmem
      cases hall
    · revert hmem
      decide
  obtain ⟨valueFirst, valueAfter, hvalue⟩ :=
    List.exists_cons_of_ne_nil (List.splitOn_ne_nil 10 value)
  have hone : (name ++ lit "=").splitOn 10 = [] ++ [name ++ lit "="] := splitOn_of_not_mem hplain
  rw [splitOn_append hone hvalue] at hlines
  exact ⟨name, valueFirst, hname, (List.cons.inj hlines).1.symm⟩

theorem splitOn_cons_blank {b first : Bytes} {after : List Bytes}
    (h : b.splitOn 10 = first :: after) : (32 :: b).splitOn 10 = (32 :: first) :: after := by
  rw [List.splitOn_cons_eq_if_modifyHead, h]
  rfl

theorem splitOn_cons_break (b : Bytes) : (10 :: b).splitOn 10 = [] :: b.splitOn 10 := by
  rw [List.splitOn_cons_eq_if_modifyHead]
  rfl

theorem named_join (s : UInt8) {texts : List Bytes} (hne : texts ≠ [])
    (hnamed : ∀ text ∈ texts, Named text) : Named (Strings.join [s] texts) := by
  cases texts with
  | nil => exact absurd rfl hne
  | cons text texts =>
    have htext := hnamed text List.mem_cons_self
    cases texts with
    | nil => exact htext
    | cons =>
      rw [Strings.join_cons_cons, List.append_assoc]
      exact htext.append _

section

variable {a b : Bytes} {s : UInt8} (hs : s = 32 ∨ s = 10) (hb : Named b)
include hs hb

theorem lines_joint : (∀ line ∈ (a ++ s :: b).splitOn 10, containsSensitive line = false) ↔
    (∀ line ∈ (a ++ s :: furtherField).splitOn 10, containsSensitive line = false) ∧
      ∀ line ∈ b.splitOn 10, containsSensitive line = false := by
  have hfurther : furtherField.splitOn 10 = [furtherField] := splitOn_of_not_mem (by decide)
  obtain ⟨before, last, ha⟩ := (List.eq_nil_or_concat (a.splitOn 10)).resolve_left
    (List.splitOn_ne_nil 10 a)
  rw [List.concat_eq_append] at ha
  rcases hs with rfl | rfl
  · obtain ⟨first, after, hlines⟩ := List.exists_cons_of_ne_nil (List.splitOn_ne_nil 10 b)
    rw [splitOn_append ha (splitOn_cons_blank hlines),
      splitOn_append ha (splitOn_cons_blank hfurther), hlines]
    simp only [List.forall_mem_append, List.forall_mem_cons,
      containsSensitive_joint (.inl rfl) (named_first hb hlines), Bool.or_eq_false_iff]
    tauto
  · rw [splitOn_append ha (splitOn_cons_break b),
      splitOn_append ha (splitOn_cons_break furtherField), hfurther]
    simp only [List.forall_mem_append, List.forall_mem_cons,
      List.append_nil, furtherField_harmless]
    tauto

theorem clean_joint : Clean (a ++ s :: b) ↔ Clean (a ++ s :: furtherField) ∧ Clean b := by
  unfold Clean
  rw [containsSensitive_joint hs hb, Bool.or_eq_false_iff, lines_joint hs hb]
  tauto

omit hb in
theorem clean_join_append {texts : List Bytes} (hne : texts ≠ [])
    (hnamed : ∀ text ∈ texts, Named text) (z : Bytes) :
    Clean (Strings.join [s] texts ++ z) ↔
      (∀ text ∈ texts.dropLast, Clean (text ++ s :: furtherField)) ∧
        ∀ text ∈ texts.getLast?, Clean (text ++ z) := by
  induction texts with
  | nil => exact absurd rfl hne
  | cons text texts ih =>
    obtain ⟨-, hrest⟩ := List.forall_mem_cons.mp hnamed
    cases texts with
    | nil => simp [Strings.join]
    | cons next texts =>
      have hnext := named_join s (List.cons_ne_nil next texts) hrest
      have hjoint := clean_joint (a := text) hs (hnext.append z)
      rw [ih (List.cons_ne_nil _ _) hrest] at hjoint
      rw [Strings.join_cons_cons, List.append_assoc, List.append_assoc, List.singleton_append,
        hjoint, List.dropLast_cons_cons, List.getLast?_cons_cons, List.forall_mem_cons, and_assoc]

end

/-! ## The fields of the evidence -/

/-- The fields of a record as they stand in its line. -/
def Collector.fieldTexts (c : Collector) (fields : Std.ExtTreeMap Bytes Bytes) :
    Option (List Bytes) :=
  ((c.present fields).mapM Collector.redactField).map (sortBy id)

/-- Each field is clean, with a further field behind it on its line or on the next one where one
follows. -/
structure CleanFields (fields : List (List Bytes)) : Prop where
  sameLine : ∀ texts ∈ fields, ∀ text ∈ texts.dropLast, Clean (text ++ lit " x=")
  nextLine : ∀ texts ∈ fields.dropLast, ∀ text ∈ texts.getLast?, Clean (text ++ lit "\nx=")
  last : ∀ texts ∈ fields.getLast?, ∀ text ∈ texts.getLast?, Clean text

theorem clean_lines_iff {fields : List (List Bytes)} (hne : [] ∉ fields)
    (hnamed : ∀ texts ∈ fields, ∀ text ∈ texts, Named text) :
    Clean (Strings.join (lit "\n") (fields.map (Strings.join (lit " ")))) ↔
      CleanFields fields := by
  rcases List.eq_nil_or_concat fields with rfl | ⟨before, final, rfl⟩
  · exact iff_of_true (by decide) ⟨nofun, nofun, nofun⟩
  rw [List.concat_eq_append] at hne hnamed ⊢
  have hne' : ∀ texts ∈ before ++ [final], texts ≠ [] := fun _ htexts hnil => hne (hnil ▸ htexts)
  -- the lines after one another, then the fields of each line
  have hline : ∀ texts ∈ before ++ [final], ∀ z, Clean (Strings.join [32] texts ++ z) ↔
      (∀ text ∈ texts.dropLast, Clean (text ++ 32 :: furtherField)) ∧
        ∀ text ∈ texts.getLast?, Clean (text ++ z) := fun texts htexts =>
    clean_join_append (.inl rfl) (hne' texts htexts) (hnamed texts htexts)
  have hlines := clean_join_append (s := 10) (.inr rfl)
    (List.map_eq_nil_iff.not.mpr (List.concat_ne_nil final before))
    (List.forall_mem_map.mpr fun texts htexts =>
      named_join 32 (hne' texts htexts) (hnamed texts htexts)) []
  simp only [List.append_nil, List.map_append, List.map_singleton, List.dropLast_concat,
    List.getLast?_concat, Option.mem_some_iff, forall_eq', List.forall_mem_map] at hlines
  have hbefore : ∀ {texts}, texts ∈ before → texts ∈ before ++ [final] := List.mem_append_left _
  have hfinal : final ∈ before ++ [final] := List.mem_append_right _ (List.mem_singleton_self _)
  rw [← List.append_nil (Strings.join [32] final), hline final hfinal] at hlines
  simp only [List.append_nil] at hlines
  rw [List.map_append, List.map_singleton]
  refine hlines.trans ⟨fun ⟨hrest, hsame, hlast⟩ => ⟨?_, ?_, ?_⟩, fun h => ⟨?_, ?_, ?_⟩⟩
  · rw [List.forall_mem_append, List.forall_mem_singleton]
    exact ⟨fun texts htexts => ((hline texts (hbefore htexts) _).mp (hrest texts htexts)).1, hsame⟩
  · rw [List.dropLast_concat]
    exact fun texts htexts => ((hline texts (hbefore htexts) _).mp (hrest texts htexts)).2
  · simpa using hlast
  · refine fun texts htexts => (hline texts (hbefore htexts) _).mpr
      ⟨h.sameLine texts (hbefore htexts), h.nextLine texts ?_⟩
    rwa [List.dropLast_concat]
  · exact h.sameLine final hfinal
  · exact h.last final (List.getLast?_concat ..)

section

variable {c : Collector} {start «end» : Time} {records : List Record}

theorem redactRecord_eq (fields : Std.ExtTreeMap Bytes Bytes) :
    c.redactRecord fields = (c.fieldTexts fields).map (Strings.join (lit " ")) := by
  rw [Collector.redactRecord, Collector.fieldTexts, Option.map_map]
  rfl

theorem named_of_fieldTexts (hnames : ∀ name ∈ c.allowed, plainName name = true)
    {fields : Std.ExtTreeMap Bytes Bytes} {texts : List Bytes}
    (h : c.fieldTexts fields = some texts) : ∀ text ∈ texts, Named text := by
  obtain ⟨values, hvalues, rfl⟩ := Option.map_eq_some_iff.mp h
  intro text htext
  obtain ⟨field, hfield, hredact⟩ := mem_of_forall₂ (mapM_eq_some_iff.mp hvalues)
    (mem_sortBy.mp htext)
  obtain ⟨redacted, -, rfl⟩ := Option.map_eq_some_iff.mp hredact
  exact ⟨field.1, redacted, hnames _ (mem_present hfield).1, rfl⟩

/-- The fields of the records a collector has taken. -/
def FieldsOf (c : Collector) (taken : List Record) (fields : List (List Bytes)) : Prop :=
  List.Forall₂ (fun record texts => c.fieldTexts record.fields = some texts) taken fields

theorem exists_fieldsOf {taken : List Record} {lines : List Bytes}
    (h : List.Forall₂ (fun record line => c.redactRecord record.fields = some line) taken lines) :
    ∃ fields, FieldsOf c taken fields ∧ lines = fields.map (Strings.join (lit " ")) := by
  induction h with
  | nil => exact ⟨[], .nil, rfl⟩
  | cons hline _ ih =>
    obtain ⟨fields, hfields, rfl⟩ := ih
    rw [redactRecord_eq] at hline
    obtain ⟨texts, htexts, rfl⟩ := Option.map_eq_some_iff.mp hline
    exact ⟨texts :: fields, .cons htexts hfields, rfl⟩

theorem FieldsOf.unique {taken : List Record} {fields fields' : List (List Bytes)}
    (h : FieldsOf c taken fields) (h' : FieldsOf c taken fields') : fields = fields' := by
  induction h generalizing fields' with
  | nil => cases h'; rfl
  | cons htexts _ ih =>
    cases h' with
    | cons htexts' h' => rw [Option.some.inj (htexts.symm.trans htexts'), ih h']

theorem Longest.unique {taken taken' : List Record} {lines lines' : List Bytes}
    (h : Longest c start «end» records taken lines)
    (h' : Longest c start «end» records taken' lines') : taken = taken' := by
  have hle := (h.prefix_lines h'.isPrefix h'.fits).length_le
  have hge := (h'.prefix_lines h.isPrefix h.fits).length_le
  rw [← h.fits.redacted.length_eq, ← h'.fits.redacted.length_eq] at hle hge
  exact List.IsPrefix.eq_of_length
    (List.prefix_of_prefix_length_le h.isPrefix h'.isPrefix hge) (Nat.le_antisymm hge hle)

end

theorem logFields_distinct : [lit "level", lit "message"].Nodup := by decide

theorem logFields_present : [lit "level", lit "message"] ≠ [] := List.cons_ne_nil _ _

theorem logFields_named : [] ∉ [lit "level", lit "message"] := by decide

theorem logLines_positive : (1 : Int64) ≤ 2 := by decide

theorem logBytes_positive : (1 : Int64) ≤ 200 := by decide

theorem logRetention_minute : (60000000000 : Duration) ≤ 60000000000 := by decide

def logCollector : Collector :=
  ⟨[lit "level", lit "message"], 2, 200, 60000000000, logFields_distinct, logFields_present,
    logFields_named, logLines_positive, logBytes_positive, logRetention_minute⟩

def logRecord : Record :=
  ⟨1, ((∅ : Std.ExtTreeMap Bytes Bytes).insert (lit "message") (lit "password: hunter2")).insert
    (lit "level") (lit "warning")⟩

def logRecords : List Record :=
  [logRecord, fieldRecord (lit "message") (lit "ready")]

def logFields : List (List Bytes) :=
  [[lit "level=warning", lit "message=password:[REDACTED]"],
    [lit "message=ready"]]

instance instDecidableCleanFields (fields : List (List Bytes)) : Decidable (CleanFields fields) :=
  decidable_of_iff
    ((∀ texts ∈ fields, ∀ text ∈ texts.dropLast, Clean (text ++ lit " x=")) ∧
      (∀ texts ∈ fields.dropLast, ∀ text ∈ texts.getLast?, Clean (text ++ lit "\nx=")) ∧
      ∀ texts ∈ fields.getLast?, ∀ text ∈ texts.getLast?, Clean text)
    ⟨fun h => ⟨h.1, h.2.1, h.2.2⟩, fun h => ⟨h.sameLine, h.nextLine, h.last⟩⟩

theorem fieldsOf_logRecords : FieldsOf logCollector logRecords logFields := by
  refine .cons ?_ (.cons (by decide +kernel) .nil)
  have hvalues : (logCollector.present logRecord.fields).mapM Collector.redactField =
      some [lit "level=warning", lit "message=password:[REDACTED]"] := by decide +kernel
  have hsorted : sortBy id [lit "level=warning", lit "message=password:[REDACTED]"] =
      [lit "level=warning", lit "message=password:[REDACTED]"] :=
    List.mergeSort_of_pairwise (by decide +kernel)
  exact (congrArg (Option.map (sortBy id)) hvalues).trans (congrArg some hsorted)

end PulseAgent.Evidence
