import PulseAgent.Evidence.Content

/-!
# Evidence from container logs

`CollectEvidence` reads at most a number of bytes of the log and collects one record for each line.
The last piece may be the beginning of a line only, and is redacted like a whole one.
-/

namespace PulseAgent.Docker

open Go Contract Redaction Evidence

def errInvalidOptions : Error := .new "invalid docker adapter options"

structure Adapter where
  evidence : Collector
  maxLogBytes : Int64
  maxLogBytes_pos : 1 ≤ maxLogBytes

def Adapter.logLimit (a : Adapter) (target : ServiceTarget) : Int64 :=
  if 0 < target.evidencePolicy.maxBytes && target.evidencePolicy.maxBytes < a.maxLogBytes then
    target.evidencePolicy.maxBytes
  else a.maxLogBytes

def message : Bytes := lit "message"

def logRecord (now : Time) (line : Bytes) : Record :=
  ⟨now, (∅ : Std.ExtTreeMap Bytes Bytes).insert message line⟩

def logRecords (now : Time) (lines : List Bytes) : List Record :=
  (lines.filter (· ≠ [])).map (logRecord now)

/-- `stream` is the log of the resolved container, or the error of finding or reading it; `now` and
`collectedAt` are what the clocks of the adapter and of the collector answer. -/
def Adapter.collectEvidence (a : Adapter) (target : ServiceTarget) (stream : Except Error Bytes)
    (now collectedAt : Time) (newID : Option Bytes) : Except Error Result := do
  let log ← stream
  let contents := log.take (a.logLimit target).toNatClampNeg
  if now.isZero then .error errInvalidOptions
  else
    a.evidence.collect newID collectedAt (lit "docker")
      target.evidencePolicy.redactionProfile now now
      (logRecords now (contents.splitOn 10))

/-! ## Where the limit cuts -/

/-- The lines of a log that end within its first bytes. -/
def wholeLines (limit : Nat) : List Bytes → List Bytes
  | [] => []
  | line :: lines =>
    if line.length ≤ limit then
      line :: if line.length < limit then wholeLines (limit - line.length - 1) lines else []
    else []

/-- The beginning of the line the limit falls into. -/
def cutLine (limit : Nat) : List Bytes → Bytes
  | [] => []
  | line :: lines =>
    if line.length ≤ limit then
      if line.length < limit then cutLine (limit - line.length - 1) lines else []
    else line.take limit

theorem filter_splitOn_take {lines : List Bytes} (hlines : ∀ line ∈ lines, (10 : UInt8) ∉ line)
    (limit : Nat) :
    (((Strings.join [10] lines).take limit).splitOn 10).filter (· ≠ []) =
      (wholeLines limit lines ++ [cutLine limit lines]).filter (· ≠ []) := by
  induction lines generalizing limit with
  | nil => simp [Strings.join, wholeLines, cutLine]
  | cons line lines ih =>
    obtain ⟨hline, hlines⟩ := List.forall_mem_cons.mp hlines
    have hnil : ∀ parts : List Bytes,
        (parts ++ [[]]).filter (· ≠ []) = parts.filter (· ≠ []) := by
      intro parts
      rw [List.filter_append, List.filter_cons_of_neg (by decide), List.filter_nil, List.append_nil]
    obtain ⟨rest, hrest⟩ : ∃ rest, Strings.join [10] (line :: lines) = line ++ rest := by
      cases lines with
      | nil => exact ⟨[], (List.append_nil line).symm⟩
      | cons next lines => exact ⟨_, List.append_assoc _ _ _⟩
    rw [wholeLines, cutLine]
    rcases Nat.lt_trichotomy line.length limit with hlt | rfl | hlt
    · rw [if_pos hlt.le, if_pos hlt, if_pos hlt.le, if_pos hlt]
      cases lines with
      | nil =>
        rw [Strings.join, List.take_of_length_le hlt.le,
          List.splitOn_eq_singleton hline, wholeLines,
          cutLine, hnil]
      | cons next lines =>
        obtain ⟨left, rfl⟩ : ∃ left, limit = line.length + (left + 1) :=
          ⟨limit - line.length - 1, by omega⟩
        have hleft : line.length + (left + 1) - line.length - 1 = left := by omega
        rw [Strings.join_cons_cons, List.append_assoc, List.take_length_add_append,
          List.singleton_append, List.take_succ_cons,
          List.splitOn_append_cons_self_of_not_mem hline, hleft, List.cons_append, List.filter_cons,
          List.filter_cons, ih hlines left]
    · rw [if_pos (Nat.le_refl _), if_neg (Nat.lt_irrefl _), if_pos (Nat.le_refl _),
        if_neg (Nat.lt_irrefl _), hrest, List.take_left, List.splitOn_eq_singleton hline, hnil]
    · rw [if_neg (Nat.not_le.mpr hlt), if_neg (Nat.not_le.mpr hlt), hrest,
        List.take_append_of_le_length hlt.le, List.splitOn_eq_singleton, List.nil_append]
      exact fun hmem => hline (List.mem_of_mem_take hmem)

/-! ## Collecting messages -/

variable {c : Collector} {now : Time}

theorem filterMap_eq_of_nodup {β : Type} (a : Bytes) (b : β) {l : List Bytes} (h : l.Nodup) :
    (l.filterMap fun x => if x = a then some b else none) = if a ∈ l then [b] else [] := by
  induction l with
  | nil => rfl
  | cons x l ih =>
    obtain ⟨hx, hl⟩ := List.nodup_cons.mp h
    rw [List.filterMap_cons, ih hl]
    by_cases heq : x = a
    · subst heq
      simp only [if_true, hx, if_false, List.mem_cons_self]
    · simp only [heq, if_false, List.mem_cons, Ne.symm heq, false_or]

theorem present_logRecord (c : Collector) (line : Bytes) :
    c.present (logRecord now line).fields =
      if message ∈ c.allowed then [(message, line)] else [] := by
  refine Eq.trans (List.filterMap_congr fun key _ => ?_)
    (filterMap_eq_of_nodup message (message, line) c.distinct)
  rw [logRecord, Std.ExtTreeMap.getElem?_insert]
  by_cases hkey : key = message
  · subst hkey
    rw [if_pos Std.ReflCmp.compare_self, if_pos rfl, Option.map_some]
  · rw [if_neg fun heq => hkey (Std.LawfulEqCmp.eq_of_compare heq).symm, if_neg hkey,
      Std.ExtTreeMap.getElem?_empty, Option.map_none]

def messageText (redacted : Bytes) : Bytes := lit "message=" ++ redacted

theorem redactRecord_logRecord (hmem : message ∈ c.allowed) (line : Bytes) :
    c.redactRecord (logRecord now line).fields = (redact line).map messageText := by
  rw [Collector.redactRecord, present_logRecord, if_pos hmem]
  cases hredact : redact line with
  | none => simp [Collector.redactField, hredact]
  | some redacted =>
    have htext : message ++ (lit "=" ++ redacted) = messageText redacted := rfl
    simp [Collector.redactField, hredact, sortBy, Strings.join, htext]

theorem isRelevant_logRecord (c : Collector) (line : Bytes) :
    isRelevant c now now (logRecord now line) = decide (message ∈ c.allowed) := by
  have hrange : (decide ((logRecord now line).at < now) || decide (now < (logRecord now line).at)) =
      false := by simp [logRecord]
  rw [isRelevant, hrange, present_logRecord]
  split_ifs with hmem <;> simp [hmem]

def messageLines (lines : List Bytes) : List Bytes :=
  lines.map fun line => messageText ((redact line).getD [])

theorem foldlM_logRecords (hmem : message ∈ c.allowed) {lines : List Bytes}
    (h : ∀ line ∈ lines, (redact line).isSome = true) :
    ((lines.map (logRecord now)).foldlM (c.collectStep now now) ([], 0) =
        .ok (messageLines lines, size (messageLines lines)) ∧
      (lines.length : Int) ≤ c.maxLines.toInt ∧
      (size (messageLines lines) : Int) ≤ c.maxBytes.toInt) ∨
    ∃ taken, (lines.map (logRecord now)).foldlM (c.collectStep now now) ([], 0) =
        .error (some taken) ∧
      (c.maxLines.toInt ≤ lines.length ∨ c.maxBytes.toInt < size (messageLines lines)) := by
  induction lines using List.reverseRecOn with
  | nil =>
    refine .inl ⟨rfl, ?_, ?_⟩
    · exact (Int64.le_iff_toInt_le.mp c.maxLines_pos).trans' (by decide)
    · exact (Int64.le_iff_toInt_le.mp c.maxBytes_pos).trans' (by decide)
  | append_singleton lines line ih =>
    obtain ⟨hlines, hline⟩ := List.forall_mem_append.mp h
    have hmessages : messageLines (lines ++ [line]) =
        messageLines lines ++ [messageText ((redact line).getD [])] := List.map_append
    have hlength : (messageLines lines).length = lines.length := List.length_map _
    rw [List.map_append, List.map_singleton, foldlM_concat, hmessages, List.length_append,
      List.length_singleton]
    rcases ih hlines with ⟨hloop, hmaxLines, hmaxBytes⟩ | ⟨taken, hloop, hbound⟩
    · rw [hloop]
      have houtcome := collectStep_outcome c now now (messageLines lines) (logRecord now line)
      obtain ⟨redacted, hredacted⟩ := Option.isSome_iff_exists.mp
        (hline line (List.mem_singleton_self _))
      have hrecord : c.redactRecord (logRecord now line).fields = some (messageText redacted) := by
        rw [redactRecord_logRecord hmem, hredacted, Option.map_some]
      change (c.collectStep now now (messageLines lines, size (messageLines lines))
          (logRecord now line) = _ ∧ _) ∨ ∃ taken, c.collectStep now now
          (messageLines lines, size (messageLines lines)) (logRecord now line) = _ ∧ _
      rw [hredacted, Option.getD_some]
      generalize c.collectStep now now (messageLines lines, size (messageLines lines))
        (logRecord now line) = step at houtcome ⊢
      cases houtcome with
      | skip hskip =>
        rw [isRelevant_logRecord, decide_eq_true hmem] at hskip
        cases hskip
      | full hfull => exact .inr ⟨_, rfl, .inl (by omega)⟩
      | failed _ _ hfailed =>
        rw [hrecord] at hfailed
        cases hfailed
      | tooLong _ text htext hlong =>
        obtain rfl := Option.some.inj (hrecord.symm.trans htext)
        exact .inr ⟨_, rfl, .inr hlong⟩
      | taken _ text htext hfull hbytes =>
        obtain rfl := Option.some.inj (hrecord.symm.trans htext)
        exact .inl ⟨rfl, by omega, hbytes⟩
    · rw [hloop]
      refine .inr ⟨taken, rfl, hbound.imp (fun hle => by omega) fun hlt => ?_⟩
      have hsize := size_le_append (messageLines lines) [messageText ((redact line).getD [])]
      omega

theorem collectStep_not_allowed (hmem : message ∉ c.allowed) (line : Bytes) :
    c.collectStep now now ([], 0) (logRecord now line) = .ok ([], 0) := by
  have hrelevant : isRelevant c now now (logRecord now line) ≠ true := by
    rw [isRelevant_logRecord, decide_eq_false hmem]
    decide
  have hpos : 1 ≤ c.maxLines.toInt := Int64.le_iff_toInt_le.mp c.maxLines_pos
  have houtcome := collectStep_outcome c now now [] (logRecord now line)
  rw [show size [] = 0 from rfl] at houtcome
  generalize c.collectStep now now ([], 0) (logRecord now line) = step at houtcome ⊢
  cases houtcome with
  | skip => rfl
  | full hfull =>
    rw [List.length_nil] at hfull
    omega
  | failed h => exact absurd h hrelevant
  | tooLong h => exact absurd h hrelevant
  | taken h => exact absurd h hrelevant

theorem foldlM_not_allowed (hmem : message ∉ c.allowed) (lines : List Bytes) :
    (lines.map (logRecord now)).foldlM (c.collectStep now now) ([], 0) = .ok ([], 0) := by
  induction lines with
  | nil => rfl
  | cons line lines ih =>
    rw [List.map_cons, List.foldlM_cons, collectStep_not_allowed hmem]
    exact ih

/-- The collector does not come to the beginning of a line, or has no room for it. -/
def CutIgnored (c : Collector) (whole : List Bytes) (cut : Bytes) : Prop :=
  cut = [] ∨ message ∉ c.allowed ∨ c.maxLines.toInt ≤ whole.length ∨
    c.maxBytes.toInt < size (messageLines whole) ∨
    ∃ redacted, redact cut = some redacted ∧
      c.maxBytes.toInt < size (messageLines whole ++ [messageText redacted])

theorem collectLines_isSome {lines : List Bytes} (h : ∀ line ∈ lines, (redact line).isSome = true) :
    (c.collectLines now now (lines.map (logRecord now))).isSome = true := by
  unfold Collector.collectLines
  by_cases hmem : message ∈ c.allowed
  · rcases foldlM_logRecords hmem h with ⟨hloop, -⟩ | ⟨taken, hloop, -⟩
    · rw [hloop]
      rfl
    · rw [hloop]
      rfl
  · rw [foldlM_not_allowed hmem]
    rfl

theorem collectLines_concat {whole : List Bytes} (h : ∀ line ∈ whole, (redact line).isSome = true)
    {cut : Bytes} (hcut : cut ≠ []) :
    (CutIgnored c whole cut ∧
      c.collectLines now now (whole.map (logRecord now) ++ [logRecord now cut]) =
        c.collectLines now now (whole.map (logRecord now))) ∨
    ¬CutIgnored c whole cut ∧
      (c.collectLines now now (whole.map (logRecord now) ++ [logRecord now cut]) = none ∨
        ∃ redacted, c.collectLines now now (whole.map (logRecord now)) = some (messageLines whole) ∧
          c.collectLines now now (whole.map (logRecord now) ++ [logRecord now cut]) =
            some (messageLines whole ++ [messageText redacted])) := by
  unfold Collector.collectLines
  rw [foldlM_concat]
  by_cases hmem : message ∈ c.allowed
  · rcases foldlM_logRecords hmem h with ⟨hloop, hmaxLines, hmaxBytes⟩ | ⟨taken, hloop, hbound⟩
    · rw [hloop]
      have hlength : (messageLines whole).length = whole.length := List.length_map _
      have houtcome := collectStep_outcome c now now (messageLines whole) (logRecord now cut)
      have hrecord : c.redactRecord (logRecord now cut).fields = (redact cut).map messageText :=
        redactRecord_logRecord hmem cut
      -- with every whole line taken, only the line itself decides
      have hignored : CutIgnored c whole cut ↔ c.maxLines.toInt ≤ whole.length ∨
          ∃ redacted, redact cut = some redacted ∧
            c.maxBytes.toInt < size (messageLines whole ++ [messageText redacted]) := by
        have hfits : ¬c.maxBytes.toInt < size (messageLines whole) := Int.not_lt.mpr hmaxBytes
        simp only [CutIgnored, hcut, hmem, not_true_eq_false, hfits, false_or]
      simp only [Except.bind]
      generalize c.collectStep now now (messageLines whole, size (messageLines whole))
        (logRecord now cut) = step at houtcome ⊢
      rw [hignored]
      cases houtcome with
      | skip hskip =>
        rw [isRelevant_logRecord, decide_eq_true hmem] at hskip
        cases hskip
      | full hfull => exact .inl ⟨.inl (by omega), rfl⟩
      | failed _ hfull hfailed =>
        rw [hrecord, Option.map_eq_none_iff] at hfailed
        refine .inr ⟨?_, .inl rfl⟩
        rintro (hle | ⟨redacted, hredacted, -⟩)
        · omega
        · rw [hfailed] at hredacted
          cases hredacted
      | tooLong _ text htext hlong =>
        obtain ⟨redacted, hredacted, rfl⟩ := Option.map_eq_some_iff.mp (hrecord.symm.trans htext)
        exact .inl ⟨.inr ⟨redacted, hredacted, hlong⟩, rfl⟩
      | taken _ text htext hfull hbytes =>
        obtain ⟨redacted, hredacted, rfl⟩ := Option.map_eq_some_iff.mp (hrecord.symm.trans htext)
        refine .inr ⟨?_, .inr ⟨redacted, trivial, rfl⟩⟩
        rintro (hle | ⟨redacted', hredacted', hlong⟩)
        · omega
        · obtain rfl := Option.some.inj (hredacted.symm.trans hredacted')
          omega
    · refine .inl ⟨.inr (.inr ?_), by rw [hloop]; rfl⟩
      rcases hbound with hbound | hbound
      · exact .inl hbound
      · exact .inr (.inl hbound)
  · refine .inl ⟨.inr (.inl hmem), ?_⟩
    rw [foldlM_not_allowed hmem]
    simp only [Except.bind, collectStep_not_allowed hmem]

/-! ## The whole call -/

theorem collect_eq {collectedAt : Time} {id source profile : Bytes}
    (hsource : source ≠ [] ∧ containsSensitive source = false)
    (hprofile : profile ≠ [] ∧ containsSensitive profile = false) (hnow : now.isZero = false)
    (hcollected : collectedAt.isZero = false) (hid : id ≠ [] ∧ containsSensitive id = false)
    (c : Collector) (records : List Record) :
    (∃ lines result, c.collectLines now now records = some lines ∧
      c.collect (some id) collectedAt source profile now now records = .ok result ∧
      result.content = Strings.join (lit "\n") lines) ∨
    c.collectLines now now records = none ∧
      c.collect (some id) collectedAt source profile now now records =
        .error Evidence.errRedactionFailed := by
  have hrange : ¬now < now := Int.lt_irrefl now
  unfold Collector.collect
  simp only [hsource, hprofile, hnow, hcollected, hid, hrange, decide_false, Bool.or_false,
    Bool.false_eq_true, if_false]
  cases c.collectLines now now records with
  | none => exact .inr ⟨rfl, rfl⟩
  | some lines => exact .inl ⟨lines, _, rfl, rfl, rfl⟩

theorem collect_congr {newID : Option Bytes} {collectedAt : Time} {source profile : Bytes}
    {records records' : List Record}
    (h : c.collectLines now now records = c.collectLines now now records') :
    c.collect newID collectedAt source profile now now records =
      c.collect newID collectedAt source profile now now records' := by
  rw [Collector.collect, Collector.collect, h]

theorem mem_of_mem_wholeLines {limit : Nat} {lines : List Bytes} {line : Bytes}
    (h : line ∈ wholeLines limit lines) : line ∈ lines := by
  induction lines generalizing limit with
  | nil => cases h
  | cons first lines ih =>
    unfold wholeLines at h
    split_ifs at h with hle hlt
    · rcases List.mem_cons.mp h with rfl | h
      · exact List.mem_cons_self
      · exact List.mem_cons_of_mem _ (ih h)
    · rw [List.mem_singleton.mp h]
      exact List.mem_cons_self
    · cases h

def Adapter.linesWithin (a : Adapter) (target : ServiceTarget) (log : Bytes) : List Bytes :=
  (wholeLines (a.logLimit target).toNatClampNeg (log.splitOn 10)).filter (· ≠ [])

def Adapter.cutOff (a : Adapter) (target : ServiceTarget) (log : Bytes) : Bytes :=
  cutLine (a.logLimit target).toNatClampNeg (log.splitOn 10)

theorem logRecords_take (a : Adapter) (target : ServiceTarget) (log : Bytes) :
    logRecords now ((log.take (a.logLimit target).toNatClampNeg).splitOn 10) =
      (a.linesWithin target log).map (logRecord now) ++
        if a.cutOff target log = [] then [] else [logRecord now (a.cutOff target log)] := by
  have hsplit := @filter_splitOn_take (log.splitOn 10)
    (fun line hline => Strings.not_mem_of_mem_splitOn hline) (a.logLimit target).toNatClampNeg
  rw [Strings.join_splitOn] at hsplit
  rw [logRecords, hsplit, List.filter_append, List.map_append]
  congr 1
  change ([a.cutOff target log].filter (· ≠ [])).map (logRecord now) = _
  by_cases hcut : a.cutOff target log = []
  · simp [hcut]
  · simp [hcut]

/-- With a log whose lines all pass the redaction, the call succeeds with the evidence of the lines
within the limit exactly if the beginning of the next line is not collected. -/
theorem log_limit_harmless_iff {a : Adapter} {target : ServiceTarget} {log id : Bytes}
    {now collectedAt : Time} (hlines : ∀ line ∈ log.splitOn 10, (redact line).isSome = true)
    (hprofile : target.evidencePolicy.redactionProfile = lit "default" ∨
      target.evidencePolicy.redactionProfile = lit "strict")
    (hnow : now.isZero = false) (hcollected : collectedAt.isZero = false)
    (hid : id ≠ [] ∧ containsSensitive id = false) :
    (∃ result, a.collectEvidence target (.ok log) now collectedAt (some id) = .ok result ∧
      a.evidence.collect (some id) collectedAt (lit "docker")
        target.evidencePolicy.redactionProfile now now
        ((a.linesWithin target log).map (logRecord now)) = .ok result) ↔
      CutIgnored a.evidence (a.linesWithin target log) (a.cutOff target log) := by
  have hwithin : ∀ line ∈ a.linesWithin target log, (redact line).isSome = true := fun line hline =>
    hlines line (mem_of_mem_wholeLines (List.mem_of_mem_filter hline))
  have hsource : lit "docker" ≠ [] ∧ containsSensitive (lit "docker") = false := by decide +kernel
  have hprofile' : target.evidencePolicy.redactionProfile ≠ [] ∧
      containsSensitive target.evidencePolicy.redactionProfile = false := by
    rcases hprofile with h | h <;> rw [h] <;> decide +kernel
  have hcall : a.collectEvidence target (.ok log) now collectedAt (some id) =
      a.evidence.collect (some id) collectedAt (lit "docker")
        target.evidencePolicy.redactionProfile now now
        ((a.linesWithin target log).map (logRecord now) ++
          if a.cutOff target log = [] then [] else [logRecord now (a.cutOff target log)]) := by
    rw [← logRecords_take]
    exact if_neg (Bool.eq_false_iff.mp hnow)
  have hcollect := collect_eq hsource hprofile' hnow hcollected hid a.evidence
  rw [hcall]
  by_cases hcut : a.cutOff target log = []
  · rw [if_pos hcut, List.append_nil]
    refine iff_of_true ?_ (.inl hcut)
    rcases hcollect ((a.linesWithin target log).map (logRecord now)) with
      ⟨_, result, -, hok, -⟩ | ⟨hnone, -⟩
    · exact ⟨result, hok, hok⟩
    · have hsome := @collectLines_isSome a.evidence now _ hwithin
      rw [hnone] at hsome
      cases hsome
  rw [if_neg hcut]
  rcases @collectLines_concat a.evidence now _ hwithin _ hcut with
    ⟨hignored, hsame⟩ | ⟨hcollected', hnone | ⟨redacted, hwhole, hmore⟩⟩
  · refine iff_of_true ?_ hignored
    rw [collect_congr hsame]
    rcases hcollect ((a.linesWithin target log).map (logRecord now)) with
      ⟨_, result, -, hok, -⟩ | ⟨hnone, -⟩
    · exact ⟨result, hok, hok⟩
    · have hsome := @collectLines_isSome a.evidence now _ hwithin
      rw [hnone] at hsome
      cases hsome
  · refine iff_of_false ?_ hcollected'
    rintro ⟨result, hok, -⟩
    obtain ⟨lines, hlines, -⟩ := exists_lines_of_collect hok
    rw [hnone] at hlines
    cases hlines
  · refine iff_of_false ?_ hcollected'
    rintro ⟨result, hok, hok'⟩
    obtain ⟨lines, hlines, hcontent, -⟩ := exists_lines_of_collect hok
    obtain ⟨lines', hlines', hcontent', -⟩ := exists_lines_of_collect hok'
    obtain rfl := Option.some.inj (hmore.symm.trans hlines)
    obtain rfl := Option.some.inj (hwhole.symm.trans hlines')
    -- the further line makes the content longer
    have hsize : size (messageLines (a.linesWithin target log) ++ [messageText redacted]) =
        size (messageLines (a.linesWithin target log)) :=
      congrArg List.length (hcontent.symm.trans hcontent')
    rw [size_concat, messageText, List.length_append, show (lit "message=").length = 8 from rfl]
      at hsize
    omega

def shortAdapter : Adapter :=
  ⟨messageCollector 10 100 (by decide) (by decide), 64, by decide⟩

def shortTarget : ServiceTarget :=
  { evidencePolicy := { redactionProfile := lit "default", maxBytes := 4 } }

theorem log_limit_harmless_iff_line_boundary : ∃ result,
    shortAdapter.collectEvidence shortTarget (.ok (lit "up\n\ndown")) 1 1 (some (lit "e")) =
      .ok result := by
  obtain ⟨result, hok, -⟩ := (@log_limit_harmless_iff shortAdapter shortTarget (lit "up\n\ndown")
    (lit "e") 1 1 (by decide +kernel) (.inl rfl) rfl rfl (by decide +kernel)).mpr
    (.inl (by decide +kernel))
  exact ⟨result, hok⟩

/-- The limit may split the two bytes of a character, or leave the beginning of a line. -/
theorem log_limit_cuts_line :
    (∀ line ∈ (lit "up\né").splitOn 10 ++ (lit "up\ndown").splitOn 10,
      (redact line).isSome = true) ∧
    (shortAdapter.collectEvidence shortTarget (.ok (lit "up\né")) 1 1 (some (lit "e"))).map
      Result.content = .error Evidence.errRedactionFailed ∧
    (shortAdapter.collectEvidence shortTarget (.ok (lit "up\ndown")) 1 1 (some (lit "e"))).map
      Result.content = .ok (lit "message=up\nmessage=d") := by
  decide +kernel

end PulseAgent.Docker
