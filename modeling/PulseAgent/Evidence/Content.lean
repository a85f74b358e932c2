import PulseAgent.Evidence.Collector

/-!
# What collected evidence consists of

The loop takes the longest prefix of the relevant records whose lines keep to the bounds. A value
may hold line breaks, which the bound on the number of lines does not see.
-/

namespace PulseAgent.Evidence

open Go Contract Redaction

variable {c : Collector} {start «end» : Time}

/-! ## One line -/

theorem mapM_eq_some_iff {α β : Type} {f : α → Option β} {l : List α} {ys : List β} :
    l.mapM f = some ys ↔ List.Forall₂ (fun a b => f a = some b) l ys := by
  induction l generalizing ys with
  | nil =>
    rw [List.mapM_nil, List.forall₂_nil_left_iff]
    exact Option.some_inj.trans eq_comm
  | cons a l ih =>
    rw [List.mapM_cons]
    constructor
    · intro h
      obtain ⟨b, hb, h⟩ := Option.bind_eq_some_iff.mp h
      obtain ⟨bs, hbs, h⟩ := Option.bind_eq_some_iff.mp h
      rw [← Option.some.inj h]
      exact .cons hb (ih.mp hbs)
    · rintro (_ | ⟨hb, hbs⟩)
      simp only [hb, ih.mpr hbs, bind, Option.bind_some, pure]

def fieldText (entry : Bytes × Bytes) : Bytes := entry.1 ++ lit "=" ++ entry.2

/-- The line holds each allowed field of the record once, with its redacted value, in the order of
the texts. -/
def Shaped (c : Collector) (record : Record) (line : Bytes) : Prop :=
  ∃ entries : List (Bytes × Bytes), line = Strings.join (lit " ") (entries.map fieldText) ∧
    (entries.map Prod.fst).Perm ((c.present record.fields).map Prod.fst) ∧
    (∀ entry ∈ entries, entry.1 ∈ c.allowed ∧
      ∃ value, record.fields[entry.1]? = some value ∧ redact value = some entry.2) ∧
    (entries.map fieldText).Pairwise fun a b => (compare a b).isLE = true

theorem mem_present {fields : Std.ExtTreeMap Bytes Bytes} {field : Bytes × Bytes}
    (h : field ∈ c.present fields) : field.1 ∈ c.allowed ∧ fields[field.1]? = some field.2 := by
  obtain ⟨key, hkey, hvalue⟩ := List.mem_filterMap.mp h
  obtain ⟨value, hlookup, rfl⟩ := Option.map_eq_some_iff.mp hvalue
  exact ⟨hkey, hlookup⟩

theorem exists_entries {fields : List (Bytes × Bytes)} {values : List Bytes}
    (h : fields.mapM Collector.redactField = some values) :
    ∃ entries : List (Bytes × Bytes), values = entries.map fieldText ∧
      entries.map Prod.fst = fields.map Prod.fst ∧
      ∀ entry ∈ entries, ∃ field ∈ fields, field.1 = entry.1 ∧ redact field.2 = some entry.2 := by
  rw [mapM_eq_some_iff] at h
  induction h with
  | nil => exact ⟨[], rfl, rfl, nofun⟩
  | @cons field text fields values hfield _ ih =>
    obtain ⟨entries, rfl, hkeys, hentries⟩ := ih
    obtain ⟨redacted, hredacted, rfl⟩ := Option.map_eq_some_iff.mp hfield
    refine ⟨(field.1, redacted) :: entries, rfl, by rw [List.map_cons, List.map_cons, hkeys], ?_⟩
    refine List.forall_mem_cons.mpr ⟨⟨field, List.mem_cons_self, rfl, hredacted⟩, ?_⟩
    intro entry hentry
    obtain ⟨field', hfield', hkey⟩ := hentries entry hentry
    exact ⟨field', List.mem_cons_of_mem _ hfield', hkey⟩

theorem shaped_of_redactRecord {record : Record} {line : Bytes}
    (h : c.redactRecord record.fields = some line) : Shaped c record line := by
  obtain ⟨values, hvalues, rfl⟩ := Option.map_eq_some_iff.mp h
  obtain ⟨entries, rfl, hkeys, hentries⟩ := exists_entries hvalues
  refine ⟨sortBy fieldText entries, by rw [map_sortBy], ?_, ?_, ?_⟩
  · rw [← hkeys]
    exact (sortBy_perm fieldText entries).map _
  · intro entry hentry
    obtain ⟨field, hfield, hkey, hredact⟩ := hentries entry (mem_sortBy.mp hentry)
    obtain ⟨hallowed, hvalue⟩ := mem_present hfield
    rw [hkey] at hallowed hvalue
    exact ⟨hallowed, field.2, hvalue, hredact⟩
  · exact List.pairwise_map.mpr (pairwise_sortBy fieldText entries)

theorem redactRecord_eq_nil_iff {record : Record} {line : Bytes}
    (h : c.redactRecord record.fields = some line) :
    line = [] ↔ c.present record.fields = [] := by
  obtain ⟨entries, rfl, hkeys, -, -⟩ := shaped_of_redactRecord h
  have hlength : entries.length = (c.present record.fields).length := by
    simpa only [List.length_map] using hkeys.length_eq
  cases entries with
  | nil => exact iff_of_true rfl (List.length_eq_zero_iff.mp hlength.symm)
  | cons entry entries =>
    refine iff_of_false (fun hnil => ?_) (fun hnil => ?_)
    · have hle := Strings.length_join_append (lit " ") [fieldText entry] (entries.map fieldText)
      rw [List.singleton_append, ← List.map_cons, hnil] at hle
      simp [Strings.join, fieldText, lit] at hle
    · rw [hnil] at hlength
      cases hlength

/-! ## The loop -/

def isRelevant (c : Collector) (start «end» : Time) (record : Record) : Bool :=
  !(record.at < start || «end» < record.at) && c.present record.fields ≠ []

def relevant (c : Collector) (start «end» : Time) (records : List Record) : List Record :=
  records.filter (isRelevant c start «end»)

def size (lines : List Bytes) : Nat := (Strings.join (lit "\n") lines).length

theorem size_concat (lines : List Bytes) (line : Bytes) :
    size (lines ++ [line]) = size lines + (line.length + if 0 < lines.length then 1 else 0) := by
  cases lines with
  | nil => simp [size, Strings.join]
  | cons first lines =>
    rw [size, size, Strings.join_concat _ (List.cons_ne_nil _ _)]
    simp only [List.length_append, List.length_cons, Nat.zero_lt_succ, if_true,
      show (lit "\n").length = 1 from rfl]
    omega

theorem size_le_append (lines more : List Bytes) : size lines ≤ size (lines ++ more) :=
  Strings.length_join_append _ lines more

/-- Lines of records that keep to the bounds. -/
structure Fits (c : Collector) (taken : List Record) (lines : List Bytes) : Prop where
  redacted : List.Forall₂ (fun record line => c.redactRecord record.fields = some line) taken lines
  maxLines : (lines.length : Int) ≤ c.maxLines.toInt
  maxBytes : (size lines : Int) ≤ c.maxBytes.toInt

/-- What one pass of the loop does with a record. -/
inductive Outcome (c : Collector) (start «end» : Time) (lines : List Bytes) (record : Record) :
    Except (Option (List Bytes)) (List Bytes × Nat) → Prop
  | skip (h : isRelevant c start «end» record = false) :
      Outcome c start «end» lines record (.ok (lines, size lines))
  | full (h : (lines.length : Int) = c.maxLines.toInt) :
      Outcome c start «end» lines record (.error (some lines))
  | failed (hrelevant : isRelevant c start «end» record = true)
      (hlines : (lines.length : Int) ≠ c.maxLines.toInt)
      (h : c.redactRecord record.fields = none) : Outcome c start «end» lines record (.error none)
  | tooLong (hrelevant : isRelevant c start «end» record = true) (line : Bytes)
      (hline : c.redactRecord record.fields = some line)
      (h : c.maxBytes.toInt < size (lines ++ [line])) :
      Outcome c start «end» lines record (.error (some lines))
  | taken (hrelevant : isRelevant c start «end» record = true) (line : Bytes)
      (hline : c.redactRecord record.fields = some line)
      (hlines : (lines.length : Int) ≠ c.maxLines.toInt)
      (h : (size (lines ++ [line]) : Int) ≤ c.maxBytes.toInt) :
      Outcome c start «end» lines record (.ok (lines ++ [line], size (lines ++ [line])))

theorem collectStep_outcome (c : Collector) (start «end» : Time) (lines : List Bytes)
    (record : Record) :
    Outcome c start «end» lines record
      (c.collectStep start «end» (lines, size lines) record) := by
  unfold Collector.collectStep
  cases hrange : (decide (record.at < start) || decide («end» < record.at)) with
  | true => exact .skip (by rw [isRelevant, hrange]; rfl)
  | false =>
    by_cases hfull : (lines.length : Int) = c.maxLines.toInt
    · simp only [Bool.false_eq_true, if_false, hfull, if_true]
      exact .full hfull
    simp only [Bool.false_eq_true, if_false, hfull]
    by_cases hpresent : c.present record.fields = []
    · have hline : c.redactRecord record.fields = some [] := by
        simp [Collector.redactRecord, hpresent, sortBy, Strings.join]
      rw [hline]
      exact .skip (by rw [isRelevant, hpresent, hrange]; rfl)
    have hrelevant : isRelevant c start «end» record = true := by
      rw [isRelevant, hrange, decide_eq_true hpresent]
      rfl
    cases hline : c.redactRecord record.fields with
    | none => exact .failed hrelevant hfull hline
    | some line =>
      have hne : line ≠ [] := fun hnil => hpresent ((redactRecord_eq_nil_iff hline).mp hnil)
      simp only [hne, if_false, ← Nat.cast_add, ← size_concat]
      by_cases hlong : c.maxBytes.toInt < size (lines ++ [line])
      · rw [if_pos hlong]
        exact .tooLong hrelevant line hline hlong
      · rw [if_neg hlong]
        exact .taken hrelevant line hline hfull (Int.not_lt.mp hlong)

theorem foldlM_concat {ε α β : Type} (f : β → α → Except ε β) (b : β) (l : List α) (a : α) :
    (l ++ [a]).foldlM f b = (l.foldlM f b).bind fun b => f b a := by
  rw [List.foldlM_append]
  simp only [List.foldlM_cons, List.foldlM_nil, bind_pure]
  rfl

/-- The loop over records that all pass takes the relevant ones. -/
theorem fits_of_foldlM {records : List Record} {acc : List Bytes × Nat}
    (h : records.foldlM (c.collectStep start «end») ([], 0) = .ok acc) :
    Fits c (relevant c start «end» records) acc.1 ∧ acc.2 = size acc.1 := by
  induction records using List.reverseRecOn generalizing acc with
  | nil =>
    cases h
    refine ⟨⟨.nil, ?_, ?_⟩, rfl⟩
    · exact (Int64.le_iff_toInt_le.mp c.maxLines_pos).trans' (by decide)
    · exact (Int64.le_iff_toInt_le.mp c.maxBytes_pos).trans' (by decide)
  | append_singleton records record ih =>
    rw [foldlM_concat] at h
    cases hbefore : records.foldlM (c.collectStep start «end») ([], 0) with
    | error e =>
      rw [hbefore] at h
      cases h
    | ok before =>
      obtain ⟨hfits, hsize⟩ := ih hbefore
      obtain ⟨lines, bytes⟩ := before
      obtain rfl : bytes = size lines := hsize
      rw [hbefore] at h
      have hstep : c.collectStep start «end» (lines, size lines) record = .ok acc := h
      have houtcome := collectStep_outcome c start «end» lines record
      rw [hstep] at houtcome
      rw [relevant, List.filter_append, ← relevant]
      cases houtcome with
      | skip hskip =>
        rw [List.filter_cons_of_neg (by rw [hskip]; decide), List.filter_nil, List.append_nil]
        exact ⟨hfits, rfl⟩
      | taken hrelevant line hline hlines hbytes =>
        rw [List.filter_cons_of_pos hrelevant, List.filter_nil]
        refine ⟨⟨List.rel_append hfits.redacted (.cons hline .nil), ?_, hbytes⟩, rfl⟩
        have hmax : (lines.length : Int) ≤ c.maxLines.toInt := hfits.maxLines
        rw [List.length_append, List.length_singleton]
        omega

theorem foldlM_error {ε α β : Type} {f : β → α → Except ε β} {b : β} {l : List α} {e : ε}
    (h : l.foldlM f b = .error e) :
    ∃ before a after b', l = before ++ a :: after ∧ before.foldlM f b = .ok b' ∧
      f b' a = .error e := by
  induction l generalizing b with
  | nil => cases h
  | cons a l ih =>
    rw [List.foldlM_cons] at h
    cases hstep : f b a with
    | error e' =>
      rw [hstep] at h
      cases h
      exact ⟨[], a, l, b, rfl, rfl, hstep⟩
    | ok b' =>
      rw [hstep] at h
      obtain ⟨before, a', after, b'', rfl, hbefore, herror⟩ := ih h
      refine ⟨a :: before, a', after, b'', rfl, ?_, herror⟩
      rw [List.foldlM_cons, hstep]
      exact hbefore

def Breaks (c : Collector) (lines : List Bytes) (record : Record) : Prop :=
  ∃ line, c.redactRecord record.fields = some line ∧ c.maxBytes.toInt < size (lines ++ [line])

/-- The lines of the longest prefix of the relevant records that keeps to the bounds. -/
structure Longest (c : Collector) (start «end» : Time) (records : List Record)
    (taken : List Record) (lines : List Bytes) : Prop where
  isPrefix : taken <+: relevant c start «end» records
  fits : Fits c taken lines
  longest : taken = relevant c start «end» records ∨ (lines.length : Int) = c.maxLines.toInt ∨
    ∃ record, taken ++ [record] <+: relevant c start «end» records ∧ Breaks c lines record

theorem longest_of_collectLines {records : List Record} {lines : List Bytes}
    (h : c.collectLines start «end» records = some lines) :
    ∃ taken, Longest c start «end» records taken lines := by
  unfold Collector.collectLines at h
  cases hloop : records.foldlM (c.collectStep start «end») ([], 0) with
  | ok acc =>
    rw [hloop] at h
    obtain rfl : acc.1 = lines := Option.some.inj h
    exact ⟨_, List.prefix_rfl, (fits_of_foldlM hloop).1, .inl rfl⟩
  | error result =>
    rw [hloop] at h
    obtain rfl : result = some lines := h
    obtain ⟨before, record, after, ⟨lines', bytes⟩, rfl, hbefore, hstep⟩ := foldlM_error hloop
    obtain ⟨hfits, hsize⟩ := fits_of_foldlM hbefore
    obtain rfl : bytes = size lines' := hsize
    have houtcome := collectStep_outcome c start «end» lines' record
    rw [hstep] at houtcome
    have hsplit : relevant c start «end» (before ++ record :: after) =
        relevant c start «end» before ++ relevant c start «end» (record :: after) :=
      List.filter_append _ _
    cases houtcome with
    | full hfull =>
      exact ⟨_, hsplit ▸ List.prefix_append _ _, hfits, .inr (.inl hfull)⟩
    | tooLong hrelevant line hline hbytes =>
      refine ⟨_, hsplit ▸ List.prefix_append _ _, hfits,
        .inr (.inr ⟨record, ?_, line, hline, hbytes⟩)⟩
      refine ⟨relevant c start «end» after, ?_⟩
      rw [hsplit, relevant, relevant, relevant, List.filter_cons_of_pos hrelevant,
        List.append_assoc]
      rfl

/-! ## The evidence -/

section

variable {newID : Option Bytes} {now : Time} {source profile : Bytes} {records : List Record}
  {result : Result}

theorem exists_lines_of_collect
    (h : c.collect newID now source profile start «end» records = .ok result) :
    ∃ lines, c.collectLines start «end» records = some lines ∧
      result.content = Strings.join (lit "\n") lines ∧
      result.reference.byteCount = Int64.ofNat result.content.length ∧
      result.reference.digest = Hex.encode (Sha256.sum256 result.content) := by
  unfold Collector.collect at h
  split at h
  · cases h
  split at h
  · cases h
  next lines hlines =>
  split at h
  · cases h
  next id =>
  dsimp only at h
  split at h
  · cases h
  split at h
  · cases h
  obtain rfl := Except.ok.inj h
  exact ⟨lines, hlines, rfl, rfl, rfl⟩

def contentLines (content : Bytes) : List Bytes :=
  if content = [] then [] else content.splitOn 10

/-- Evidence within its bounds: each line a reader sees is the line of one record, the records are
the longest prefix of the relevant ones that keeps to the bounds, and the reference describes the
content. -/
structure Bounded (c : Collector) (start «end» : Time) (records : List Record) (result : Result) :
    Prop where
  maxBytes : (result.content.length : Int) ≤ c.maxBytes.toInt
  lines : ∃ taken, Longest c start «end» records taken (contentLines result.content) ∧
    List.Forall₂ (Shaped c) taken (contentLines result.content)
  byteCount : result.reference.byteCount.toInt = result.content.length
  digest : result.reference.digest = Hex.encode (Sha256.sum256 result.content)

theorem mem_of_forall₂ {α β : Type} {R : α → β → Prop} {l : List α} {ys : List β}
    (h : List.Forall₂ R l ys) {y : β} (hy : y ∈ ys) : ∃ a ∈ l, R a y := by
  induction h with
  | nil => cases hy
  | cons hab _ ih =>
    rcases List.mem_cons.mp hy with rfl | hy
    · exact ⟨_, List.mem_cons_self, hab⟩
    · obtain ⟨a, ha, hay⟩ := ih hy
      exact ⟨a, List.mem_cons_of_mem _ ha, hay⟩

theorem line_ne_nil {record : Record} {line : Bytes}
    (hrelevant : isRelevant c start «end» record = true)
    (h : c.redactRecord record.fields = some line) : line ≠ [] := by
  rw [ne_eq, redactRecord_eq_nil_iff h]
  simpa using (Bool.and_eq_true_iff.mp hrelevant).2

theorem contentLines_join {lines : List Bytes} (hne : ∀ line ∈ lines, line ≠ [])
    (h : ∀ line ∈ lines, (10 : UInt8) ∉ line) :
    contentLines (Strings.join (lit "\n") lines) = lines := by
  cases lines with
  | nil => rfl
  | cons first lines =>
    have hjoin : Strings.join (lit "\n") (first :: lines) ≠ [] := by
      intro hnil
      have hle := Strings.length_join_append (lit "\n") [first] lines
      rw [List.singleton_append, hnil] at hle
      exact hne first List.mem_cons_self (List.length_eq_zero_iff.mp (Nat.le_zero.mp hle))
    rw [contentLines, if_neg hjoin]
    exact Strings.splitOn_join (List.cons_ne_nil _ _) h

theorem not_mem_of_mem_contentLines {content line : Bytes} (h : line ∈ contentLines content) :
    (10 : UInt8) ∉ line := by
  unfold contentLines at h
  split_ifs at h
  · cases h
  · exact Strings.not_mem_of_mem_splitOn h

theorem prefix_of_forall₂ {α β : Type} {f : α → Option β} {l l' : List α} {ys ys' : List β}
    (h : List.Forall₂ (fun a b => f a = some b) l ys)
    (h' : List.Forall₂ (fun a b => f a = some b) l' ys') (hinit : l' <+: l) : ys' <+: ys := by
  have hmap : ∀ {l : List α} {ys : List β}, List.Forall₂ (fun a b => f a = some b) l ys →
      l.map f = ys.map some := by
    intro l ys h
    induction h with
    | nil => rfl
    | cons hab _ ih => rw [List.map_cons, List.map_cons, hab, ih]
  have hvalues := hinit.map f
  rw [hmap h, hmap h'] at hvalues
  exact (List.prefix_map_iff_of_injective (Option.some_injective _)).mp hvalues

/-- A prefix that fits is part of a longest one. -/
theorem Longest.prefix_lines {taken taken' : List Record} {lines lines' : List Bytes}
    (h : Longest c start «end» records taken lines)
    (hinit : taken' <+: relevant c start «end» records) (hfits : Fits c taken' lines') :
    lines' <+: lines := by
  rcases h.longest with hall | hfull | ⟨record, hnext, line, hline, hbreaks⟩
  · exact prefix_of_forall₂ h.fits.redacted hfits.redacted (hall ▸ hinit)
  · rcases List.prefix_or_prefix_of_prefix hinit h.isPrefix with hle | hle
    · exact prefix_of_forall₂ h.fits.redacted hfits.redacted hle
    · -- as many lines as there may be
      have hmax := hfits.maxLines
      rw [← hfull] at hmax
      have hlines := prefix_of_forall₂ hfits.redacted h.fits.redacted hle
      rw [hlines.eq_of_length_le (by exact_mod_cast hmax)]
  · -- with the next record's line the lines are too long
    have hlong : ¬taken ++ [record] <+: taken' := by
      intro hle
      have hredacted : List.Forall₂ (fun record line => c.redactRecord record.fields = some line)
          (taken ++ [record]) (lines ++ [line]) :=
        List.rel_append h.fits.redacted (.cons hline .nil)
      obtain ⟨more, rfl⟩ := prefix_of_forall₂ hfits.redacted hredacted hle
      have hsize := size_le_append (lines ++ [line]) more
      have hmax := hfits.maxBytes
      omega
    rcases List.prefix_or_prefix_of_prefix hinit hnext with hle | hle
    · rcases List.prefix_concat_iff.mp hle with rfl | hle
      · exact absurd List.prefix_rfl hlong
      · exact prefix_of_forall₂ h.fits.redacted hfits.redacted hle
    · exact absurd hle hlong

/-- Collected evidence keeps to its bounds exactly if no line that fits holds a line break. -/
theorem evidence_bounded_iff {c : Collector} {newID : Option Bytes} {now start «end» : Time}
    {source profile : Bytes} {records : List Record} {result : Result}
    (h : c.collect newID now source profile start «end» records = .ok result) :
    Bounded c start «end» records result ↔
      ∀ taken lines, taken <+: relevant c start «end» records → Fits c taken lines →
        ∀ line ∈ lines, (10 : UInt8) ∉ line := by
  obtain ⟨lines, hlines, hcontent, hcount, hdigest⟩ := exists_lines_of_collect h
  obtain ⟨taken, hlongest⟩ := longest_of_collectLines hlines
  constructor
  · rintro ⟨-, ⟨taken', hlongest', -⟩, -, -⟩ t l hinit hfits line hline
    exact not_mem_of_mem_contentLines ((hlongest'.prefix_lines hinit hfits).subset hline)
  · intro hplain
    have hseen : contentLines result.content = lines := by
      rw [hcontent]
      refine contentLines_join (fun line hline => ?_)
        (hplain taken lines hlongest.isPrefix hlongest.fits)
      obtain ⟨record, hmem, hredacted⟩ := mem_of_forall₂ hlongest.fits.redacted hline
      exact line_ne_nil (List.mem_filter.mp (hlongest.isPrefix.subset hmem)).2 hredacted
    have hbytes : (result.content.length : Int) ≤ c.maxBytes.toInt := by
      rw [hcontent]
      exact hlongest.fits.maxBytes
    refine ⟨hbytes, ⟨taken, hseen ▸ hlongest, ?_⟩, ?_, hdigest⟩
    · rw [hseen]
      exact hlongest.fits.redacted.imp fun _ _ => shaped_of_redactRecord
    · have hmax := c.maxBytes.toInt_lt
      rw [hcount, Int64.toInt_ofNat_of_lt (by omega)]

def messageCollector (maxLines maxBytes : Int64) (hlines : 1 ≤ maxLines) (hbytes : 1 ≤ maxBytes) :
    Collector :=
  ⟨[lit "message"], maxLines, maxBytes, 60000000000, by decide, by decide, by decide,
    hlines, hbytes,
    by decide⟩

def fieldRecord (field value : Bytes) : Record :=
  ⟨1, (∅ : Std.ExtTreeMap Bytes Bytes).insert field value⟩

def messageEvidence (maxLines maxBytes : Int64) (hlines : 1 ≤ maxLines) (hbytes : 1 ≤ maxBytes)
    (messages : List Bytes) : Except Error Result :=
  (messageCollector maxLines maxBytes hlines hbytes).collect (some (lit "e")) 1 (lit "docker")
    (lit "default") 1 1 (messages.map (fieldRecord (lit "message")))

theorem evidence_bounded_iff_two_lines : ∃ result,
    messageEvidence 2 100 (by decide) (by decide) [lit "a", lit "b", lit "c"] = .ok result ∧
    result.content = lit "message=a\nmessage=b" ∧
    Bounded (messageCollector 2 100 (by decide) (by decide)) 1 1
      ([lit "a", lit "b", lit "c"].map (fieldRecord (lit "message"))) result := by
  have hcontent : (messageEvidence 2 100 (by decide) (by decide)
      [lit "a", lit "b", lit "c"]).map (·.content) = .ok (lit "message=a\nmessage=b") := by
    decide +kernel
  cases hresult : messageEvidence 2 100 (by decide) (by decide) [lit "a", lit "b", lit "c"] with
  | error e =>
    rw [hresult] at hcontent
    cases hcontent
  | ok result =>
    rw [hresult] at hcontent
    refine ⟨result, rfl, Except.ok.inj hcontent, (evidence_bounded_iff hresult).mpr ?_⟩
    intro taken lines hinit hfits line hline
    obtain ⟨record, hmem, hredacted⟩ := mem_of_forall₂ hfits.redacted hline
    have hplain : ∀ record ∈ [lit "a", lit "b", lit "c"].map (fieldRecord (lit "message")),
        ∀ line ∈ (messageCollector 2 100 (by decide) (by decide)).redactRecord record.fields,
          (10 : UInt8) ∉ line := by decide +kernel
    exact hplain record (List.mem_of_mem_filter (hinit.subset hmem)) line hredacted

/-- One record may have two lines where one is allowed. -/
theorem line_break_exceeds_bounds :
    (messageEvidence 1 100 (by decide) (by decide) [lit "a\nb"]).map
      (fun result => contentLines result.content) = .ok [lit "message=a", lit "b"] := by
  decide +kernel

end

end PulseAgent.Evidence
