import PulseAgent.AdminIPC.Protocol
import PulseAgent.Go.Sort

/-!
# Incident queries

A client follows the next offset until it is zero.
-/

namespace PulseAgent.Incidents

open Go Go.Json Contract AdminIPC

def maxPageSize : Int64 := 100
def defaultPageSize : Int64 := 25

def errInvalidQuery : Error := .new "invalid incident query"

/-- What a query reads of a stored record. -/
structure Envelope where
  incident : Incident := {}

def Envelope.fields : List (Member Envelope) :=
  [.of (lit "incident") Incident.codec (·.incident) fun x s => { s with incident := x }]

def Envelope.codec : Codec Envelope :=
  .struct Envelope.fields {} (by decide +kernel) (by decide +kernel) fun _ => by
    repeat' constructor

/-- `json.Unmarshal` of a record, and the check of its incident. -/
def readIncident (document : Bytes) : Except Error Incident :=
  match (parse document).map (Envelope.codec.read false) with
  | some (.ok record) =>
    if record.incident.validate.isOk then .ok record.incident else .error errInvalidQuery
  | _ => .error errInvalidQuery

def validFilter (filter : Filter) : Bool :=
  0 ≤ filter.offset && 0 ≤ filter.pageSize && filter.pageSize ≤ maxPageSize &&
    (filter.from.isZero || filter.to.isZero || !decide (filter.to < filter.from))

/-- The incident has the state and lies within the inclusive time bounds. -/
def selects (filter : Filter) (value : Incident) : Bool :=
  (filter.state = .unset || value.state = filter.state) &&
    (filter.from.isZero || !decide (value.openedAt < filter.from)) &&
    (filter.to.isZero || !decide (filter.to < value.openedAt))

theorem selects_iff {filter : Filter} {value : Incident} :
    selects filter value = true ↔
      (filter.state = .unset ∨ value.state = filter.state) ∧
      (filter.from.isZero = true ∨ filter.from ≤ value.openedAt) ∧
      (filter.to.isZero = true ∨ value.openedAt ≤ filter.to) := by
  simp only [selects, Bool.and_eq_true, Bool.or_eq_true, decide_eq_true_eq, Bool.not_eq_true',
    decide_eq_false_iff_not, not_lt, and_assoc]

/-- The callback of `list` for one record. -/
def collect (filter : Filter) (items : List Incident) (_key document : Bytes) :
    Except Error (List Incident) := do
  let value ← readIncident document
  if selects filter value then return items ++ [value] else return items

def pageSize (filter : Filter) : Int64 :=
  if filter.pageSize = 0 then defaultPageSize else filter.pageSize

/-- The page of the sorted items at an offset. The offset is below the number of items where the
sum is taken, so that it does not leave the range of `int`. -/
def pageAt (items : List Incident) (size offset : Nat) : Page :=
  if items.length ≤ offset then { incidents := some [] }
  else
    let stop := min (offset + size) items.length
    { incidents := some ((items.take stop).drop offset)
      nextOffset := if stop < items.length then Int64.ofNat stop else 0 }

def list (filter : Filter) (s : Store) : Except Error Page :=
  if !validFilter filter then .error errInvalidQuery
  else do
    let items ← Store.view (Tx.forEach .incidents [] (collect filter)) s
    return pageAt (sortBy Incident.incidentID items) (pageSize filter).toNatClampNeg
      filter.offset.toNatClampNeg

/-- The calls a client makes from an offset on, until the next offset is zero. -/
inductive Follows (filter : Filter) (s : Store) : Int64 → List Page → Prop
  | last {offset : Int64} {page : Page} (h : list { filter with offset } s = .ok page)
      (hzero : page.nextOffset = 0) : Follows filter s offset [page]
  | next {offset : Int64} {page : Page} {pages : List Page}
      (h : list { filter with offset } s = .ok page) (hnext : page.nextOffset ≠ 0)
      (hpages : Follows filter s page.nextOffset pages) : Follows filter s offset (page :: pages)

theorem Follows.unique {filter : Filter} {s : Store} {offset : Int64} {pages pages' : List Page}
    (h : Follows filter s offset pages) (h' : Follows filter s offset pages') : pages = pages' := by
  induction h generalizing pages' with
  | last h hzero =>
    cases h' with
    | last h' _ => rw [Except.ok.inj (h.symm.trans h')]
    | next h' hnext _ =>
      obtain rfl := Except.ok.inj (h.symm.trans h')
      exact absurd hzero hnext
  | next h hnext _ ih =>
    cases h' with
    | last h' hzero =>
      obtain rfl := Except.ok.inj (h.symm.trans h')
      exact absurd hzero hnext
    | next h' _ hpages' =>
      obtain rfl := Except.ok.inj (h.symm.trans h')
      rw [ih hpages']

/-! ## The items of a readable store -/

/-- Every record is read, and no two have one incident ID. -/
structure Readable (s : Store) : Prop where
  read : ∀ key document : Bytes, (s .incidents)[key]? = some document →
    ∃ value, readIncident document = .ok value
  distinct : ∀ (key key' document document' : Bytes) (value value' : Incident),
    (s .incidents)[key]? = some document → (s .incidents)[key']? = some document' →
    readIncident document = .ok value → readIncident document' = .ok value' →
    value.incidentID = value'.incidentID → key = key'

def Stored (s : Store) (value : Incident) : Prop :=
  ∃ key document : Bytes, (s .incidents)[key]? = some document ∧ readIncident document = .ok value

theorem toOption_eq_some {x : Except Error Incident} {value : Incident} :
    x.toOption = some value ↔ x = .ok value := by
  cases x with
  | error e => simp [Except.toOption]
  | ok a => simp [Except.toOption]

theorem foldlM_collect {filter : Filter} {entries : List (Bytes × Bytes)} {items : List Incident}
    (h : ∀ entry ∈ entries, ∃ value, readIncident entry.2 = .ok value) :
    entries.foldlM (fun acc entry => collect filter acc entry.1 entry.2) items =
      .ok (items ++ (entries.filterMap fun entry => (readIncident entry.2).toOption).filter
        (selects filter)) := by
  induction entries generalizing items with
  | nil => rw [List.filterMap_nil, List.filter_nil, List.append_nil]; rfl
  | cons entry entries ih =>
    obtain ⟨⟨value, hvalue⟩, hrest⟩ := List.forall_mem_cons.mp h
    have hstep : collect filter items entry.1 entry.2 =
        .ok (if selects filter value then items ++ [value] else items) := by
      simp only [collect, hvalue, bind, Except.bind]
      split_ifs <;> rfl
    rw [List.foldlM_cons, hstep, List.filterMap_cons, hvalue]
    refine (ih hrest).trans ?_
    by_cases hselects : selects filter value = true
    · simp [hselects, Except.toOption]
    · simp [hselects, Except.toOption]

/-- The selected incidents in the order of their keys. -/
def selected (filter : Filter) (s : Store) : List Incident :=
  ((s .incidents).toList.filterMap fun entry => (readIncident entry.2).toOption).filter
    (selects filter)

theorem mem_selected {filter : Filter} {s : Store} {value : Incident} :
    value ∈ selected filter s ↔ selects filter value = true ∧ Stored s value := by
  simp only [selected, List.mem_filter, List.mem_filterMap, Prod.exists,
    Std.ExtTreeMap.mem_toList_iff_getElem?_eq_some, Stored, toOption_eq_some]
  exact and_comm

theorem nodup_selected {s : Store} (h : Readable s) (filter : Filter) :
    ((selected filter s).map Incident.incidentID).Nodup := by
  refine List.Nodup.sublist (List.filter_sublist.map _) ?_
  rw [List.Nodup, List.pairwise_map, List.pairwise_filterMap]
  refine (TreeMap.nodup_toList (s .incidents)).imp_of_mem ?_
  rintro ⟨key, document⟩ ⟨key', document'⟩ hmem hmem' hne value hvalue value' hvalue' heq
  rw [Std.ExtTreeMap.mem_toList_iff_getElem?_eq_some] at hmem hmem'
  obtain rfl := h.distinct key key' document document' value value' hmem hmem'
    (toOption_eq_some.mp hvalue) (toOption_eq_some.mp hvalue') heq
  exact hne (by rw [Option.some.inj (hmem.symm.trans hmem')])

theorem list_eq {s : Store}
    (h : ∀ key document : Bytes, (s .incidents)[key]? = some document →
      ∃ value, readIncident document = .ok value)
    {filter : Filter} (hvalid : validFilter filter = true) :
    list filter s = .ok (pageAt (sortBy Incident.incidentID (selected filter s))
      (pageSize filter).toNatClampNeg filter.offset.toNatClampNeg) := by
  have hread : ∀ entry ∈ (s .incidents).toList, ∃ value, readIncident entry.2 = .ok value :=
    fun entry hentry => h entry.1 entry.2
      (Std.ExtTreeMap.mem_toList_iff_getElem?_eq_some.mp hentry)
  have hitems : Store.view (Tx.forEach .incidents [] (collect filter)) s =
      .ok (selected filter s) := by
    rw [Store.view, Tx.forEach, foldlM_collect hread]
    rfl
  rw [list, hvalid, hitems]
  rfl

/-! ## Following the next offset -/

section

variable {items : List Incident} {size offset : Nat}

theorem pageAt_of_le (h : items.length ≤ offset) :
    pageAt items size offset = { incidents := some [] } :=
  if_pos h

theorem pageAt_last (h : offset < items.length) (hlast : items.length ≤ offset + size) :
    pageAt items size offset = { incidents := some (items.drop offset) } := by
  rw [pageAt, if_neg (Nat.not_le.mpr h), Nat.min_eq_right hlast]
  simp only [List.take_length, Nat.lt_irrefl, if_false]

theorem pageAt_full (h : offset + size < items.length) :
    pageAt items size offset =
      { incidents := some ((items.drop offset).take size)
        nextOffset := Int64.ofNat (offset + size) } := by
  rw [pageAt, if_neg (by omega), Nat.min_eq_left (Nat.le_of_lt h)]
  simp only [h, if_true, List.drop_take, Nat.add_sub_cancel_left]

/-- The pages from an offset on hold the items from there on. -/
structure Paged (items : List Incident) (size : Nat) (pages : List Page) : Prop where
  nonempty : pages ≠ []
  content : pages.flatMap (fun page => elems page.incidents) = items
  full : ∀ page ∈ pages.dropLast, (elems page.incidents).length = size
  bounded : ∀ page ∈ pages, (elems page.incidents).length ≤ size

theorem Paged.singleton (h : items.length ≤ size) :
    Paged items size [{ incidents := some items }] where
  nonempty := List.cons_ne_nil _ _
  content := List.append_nil items
  full := nofun
  bounded page hpage := by
    rw [List.mem_singleton.mp hpage]
    exact h

theorem Paged.cons {pages : List Page} {next : Int64} (hsize : size ≤ items.length)
    (h : Paged (items.drop size) size pages) :
    Paged items size ({ incidents := some (items.take size), nextOffset := next } :: pages) where
  nonempty := List.cons_ne_nil _ _
  content := by
    rw [List.flatMap_cons, h.content]
    exact List.take_append_drop size items
  full page hpage := by
    rw [List.dropLast_cons_of_ne_nil h.nonempty] at hpage
    rcases List.mem_cons.mp hpage with rfl | hpage
    · exact List.length_take_of_le hsize
    · exact h.full page hpage
  bounded page hpage := by
    rcases List.mem_cons.mp hpage with rfl | hpage
    · exact List.length_take_le size items
    · exact h.bounded page hpage

end

theorem toNatClampNeg_ofNat {n : Nat} (h : n < 2 ^ 63) : (Int64.ofNat n).toNatClampNeg = n := by
  rw [Int64.toNatClampNeg, Int64.toInt_ofNat_of_lt h]
  exact Int.toNat_natCast n

theorem pageSize_pos {filter : Filter} (h : validFilter filter = true) :
    0 < (pageSize filter).toNatClampNeg := by
  simp only [validFilter, Bool.and_eq_true, decide_eq_true_eq] at h
  have hnonneg := Int64.le_iff_toInt_le.mp h.1.1.2
  unfold pageSize
  split_ifs with hzero
  · decide
  · have hne : filter.pageSize.toInt ≠ 0 := fun heq => hzero (Int64.toInt_inj.mp heq)
    rw [Int64.toNatClampNeg]
    change 0 ≤ filter.pageSize.toInt at hnonneg
    omega

theorem validFilter_at {filter : Filter} (h : validFilter filter = true) {n : Nat}
    (hn : n < 2 ^ 63) :
    validFilter { filter with offset := Int64.ofNat n } = true := by
  simp only [validFilter, Bool.and_eq_true, decide_eq_true_eq] at h ⊢
  refine ⟨⟨⟨?_, h.1.1.2⟩, h.1.2⟩, h.2⟩
  rw [Int64.le_iff_toInt_le, Int64.toInt_ofNat_of_lt hn]
  exact Int.natCast_nonneg n

theorem list_at {s : Store} (h : Readable s) {filter : Filter} (hvalid : validFilter filter = true)
    {n : Nat} (hn : n < 2 ^ 63) : list { filter with offset := Int64.ofNat n } s =
      .ok (pageAt (sortBy Incident.incidentID (selected filter s))
        (pageSize filter).toNatClampNeg n) := by
  refine (list_eq h.read (validFilter_at hvalid hn)).trans ?_
  rw [toNatClampNeg_ofNat hn]
  rfl

theorem follows_from {s : Store} (h : Readable s) {filter : Filter}
    (hvalid : validFilter filter = true) (hcount : (selected filter s).length < 2 ^ 63) {n : Nat}
    (hn : n = 0 ∨ n < (selected filter s).length) :
    ∃ pages, Follows filter s (Int64.ofNat n) pages ∧
      Paged ((sortBy Incident.incidentID (selected filter s)).drop n)
        (pageSize filter).toNatClampNeg pages := by
  -- by induction on the number of items that are still to come
  induction hleft : (selected filter s).length - n using Nat.strong_induction_on generalizing n with
  | _ left ih =>
    have hpositive := pageSize_pos hvalid
    have hlist := list_at h hvalid (n := n) (by omega)
    have hlength := length_sortBy Incident.incidentID (selected filter s)
    generalize (pageSize filter).toNatClampNeg = size at *
    generalize hitems : sortBy Incident.incidentID (selected filter s) = items at *
    by_cases hfull : n + size < items.length
    · rw [pageAt_full hfull] at hlist
      obtain ⟨pages, hpages, hpaged⟩ :=
        ih ((selected filter s).length - (n + size)) (by omega) (.inr (by omega)) rfl
      have hnext : Int64.ofNat (n + size) ≠ 0 := by
        intro hzero
        have := congrArg Int64.toNatClampNeg hzero
        rw [toNatClampNeg_ofNat (by omega)] at this
        exact absurd this (by simp; omega)
      refine ⟨_, .next hlist hnext hpages, Paged.cons ?_ ?_⟩
      · rw [List.length_drop]
        omega
      · rwa [List.drop_drop]
    · have hpage : pageAt items size n = { incidents := some (items.drop n) } := by
        rcases Nat.lt_or_ge n items.length with hlt | hge
        · exact pageAt_last hlt (by omega)
        · rw [pageAt_of_le hge, List.drop_eq_nil_of_le hge]
      rw [hpage] at hlist
      refine ⟨_, .last hlist rfl, Paged.singleton ?_⟩
      rw [List.length_drop]
      omega

/-! ## Result -/

/-- On an unchanged store the client's calls end, and their pages are the stored incidents of the
filter's state within its inclusive bounds, in the order of their IDs; all pages but the last are
full. -/
theorem pages_cover_selection {s : Store} (h : Readable s)
    (hcount : (s .incidents).toList.length < 2 ^ 63) {filter : Filter}
    (hvalid : validFilter filter = true) :
    (∃ pages, Follows filter s 0 pages) ∧
    ∀ pages, Follows filter s 0 pages →
      Increasing Incident.incidentID (pages.flatMap fun page => elems page.incidents) ∧
      (∀ value, value ∈ pages.flatMap (fun page => elems page.incidents) ↔
        ((filter.state = .unset ∨ value.state = filter.state) ∧
          (filter.from.isZero = true ∨ filter.from ≤ value.openedAt) ∧
          (filter.to.isZero = true ∨ value.openedAt ≤ filter.to)) ∧ Stored s value) ∧
      (∀ page ∈ pages.dropLast, ((elems page.incidents).length : Int) = (pageSize filter).toInt) ∧
      ∀ page ∈ pages, ((elems page.incidents).length : Int) ≤ (pageSize filter).toInt := by
  have hselected : (selected filter s).length < 2 ^ 63 := by
    refine lt_of_le_of_lt ?_ hcount
    exact le_trans (List.length_filter_le _ _) (List.length_filterMap_le _ _)
  obtain ⟨pages, hfollows, hpaged⟩ := follows_from h hvalid hselected (n := 0) (.inl rfl)
  have hsize : ((pageSize filter).toNatClampNeg : Int) = (pageSize filter).toInt := by
    have hpositive := pageSize_pos hvalid
    rw [Int64.toNatClampNeg] at hpositive ⊢
    exact Int.toNat_of_nonneg (by omega)
  refine ⟨⟨pages, hfollows⟩, fun pages' hfollows' => ?_⟩
  obtain rfl := hfollows.unique hfollows'
  rw [← hsize, hpaged.content, List.drop_zero]
  refine ⟨increasing_sortBy (nodup_selected h filter), fun value => ?_, fun page hpage => ?_,
    fun page hpage => ?_⟩
  · rw [mem_sortBy, mem_selected, selects_iff]
  · rw [hpaged.full page hpage]
  · exact Int.ofNat_le.mpr (hpaged.bounded page hpage)

theorem readable_of_entries {s : Store}
    (hread : ∀ entry ∈ (s .incidents).toList, (readIncident entry.2).toOption.isSome = true)
    (hdistinct : ((s .incidents).toList.map fun entry =>
      (readIncident entry.2).toOption.map Incident.incidentID).Nodup) : Readable s where
  read key document hdocument := by
    have hsome := hread _ (Std.ExtTreeMap.mem_toList_iff_getElem?_eq_some.mpr hdocument)
    obtain ⟨value, hvalue⟩ := Option.isSome_iff_exists.mp hsome
    exact ⟨value, toOption_eq_some.mp hvalue⟩
  distinct key key' document document' value value' h h' hvalue hvalue' heq := by
    have hmem := Std.ExtTreeMap.mem_toList_iff_getElem?_eq_some.mpr h
    have hmem' := Std.ExtTreeMap.mem_toList_iff_getElem?_eq_some.mpr h'
    have hentry := List.inj_on_of_nodup_map hdistinct hmem hmem' (by
      simp only [hvalue, hvalue', Except.toOption, Option.map_some, heq])
    exact congrArg Prod.fst hentry

def exampleIncident (incidentID : Bytes) (state : IncidentState) (openedAt : Time) : Incident where
  schemaVersion := schemaVersionV1
  incidentID
  targetID := lit "web"
  ruleIDs := some [lit "availability"]
  state
  openedAt

def exampleDocument (value : Incident) : Bytes := (Envelope.codec.marshal ⟨value⟩).getD []

/-- Three open incidents, the last of them opened late. -/
def exampleStore : Store :=
  Function.update Store.empty .incidents
    ((((∅ : Collection).insert
      (lit "k") (exampleDocument (exampleIncident (lit "b") .opened 5))).insert
      (lit "l") (exampleDocument (exampleIncident (lit "a") .opened 2))).insert
      (lit "m") (exampleDocument (exampleIncident (lit "c") .opened 6)))

def exampleFilter : Filter := { state := .opened, «from» := 2, «to» := 5, pageSize := 1 }

theorem exampleStore_selected :
    selected exampleFilter exampleStore =
      [exampleIncident (lit "b") .opened 5, exampleIncident (lit "a") .opened 2] := by
  decide +kernel

theorem exampleStore_sorted :
    sortBy Incident.incidentID (selected exampleFilter exampleStore) =
      [exampleIncident (lit "a") .opened 2, exampleIncident (lit "b") .opened 5] := by
  refine (increasing_sortBy ?_).eq_of_perm ?_ ((sortBy_perm _ _).trans ?_)
  · rw [exampleStore_selected]
    decide
  · exact List.pairwise_pair.mpr (by decide)
  · rw [exampleStore_selected]
    exact List.Perm.swap _ _ _

theorem pages_cover_selection_example :
    ∃ pages, Follows exampleFilter exampleStore 0 pages ∧
      pages.map (fun page => ((elems page.incidents).map Incident.incidentID, page.nextOffset)) =
        [([lit "a"], 1), ([lit "b"], 0)] ∧
      ∀ value, value ∈ pages.flatMap (fun page => elems page.incidents) ↔
        (value.state = .opened ∧ 2 ≤ value.openedAt ∧ value.openedAt ≤ 5) ∧
          Stored exampleStore value := by
  have hreadable : Readable exampleStore :=
    readable_of_entries (by decide +kernel) (by decide +kernel)
  have hvalid : validFilter exampleFilter = true := by decide
  obtain ⟨⟨pages, hpages⟩, hall⟩ := pages_cover_selection hreadable (by decide +kernel) hvalid
  refine ⟨pages, hpages, ?_, fun value => ?_⟩
  · -- the two calls of the client
    have hfirst := list_at hreadable hvalid (n := 0) (by decide)
    have hsecond := list_at hreadable hvalid (n := 1) (by decide)
    rw [exampleStore_sorted] at hfirst hsecond
    have hlast : Follows exampleFilter exampleStore (Int64.ofNat 1) _ := .last hsecond rfl
    have hfollows : Follows exampleFilter exampleStore (Int64.ofNat 0) _ :=
      .next hfirst (by decide) hlast
    rw [hpages.unique hfollows]
    rfl
  · rw [(hall pages hpages).2.1 value]
    have hstate : exampleFilter.state ≠ .unset := by decide
    have hfrom : ¬exampleFilter.from.isZero = true := by decide
    have hto : ¬exampleFilter.to.isZero = true := by decide
    rw [or_iff_right hstate, or_iff_right hfrom, or_iff_right hto]
    rfl

end PulseAgent.Incidents
