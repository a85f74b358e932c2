import PulseAgent.Alert.Ingress
import PulseAgent.Contract.Decode

/-!
# Receipts

Between two acceptances of one webhook ID the first receipt has to expire, however the calls
interleave.
-/

namespace PulseAgent.Alert

open Go Go.Json Contract Concurrent

/-! ## The transaction -/

/-- The receipt refuses its webhook ID at this reading. -/
def active (now : Time) (document : Bytes) : Bool :=
  (readReceipt document).toOption.any fun expiresAt => decide (now < expiresAt)

theorem active_of_ok {now expiresAt : Time} {document : Bytes}
    (h : readReceipt document = .ok expiresAt) :
      active now document = decide (now < expiresAt) := by
  rw [active, h]
  rfl

theorem readReceipt_marshal {expiresAt : Time} {document : Bytes}
    (h : Receipt.codec.marshal ⟨expiresAt⟩ = some document) : readReceipt document =
      if expiresAt.isZero then .error errInvalidAlert else .ok expiresAt := by
  obtain ⟨v, hv, rfl⟩ := Option.map_eq_some_iff.mp h
  unfold readReceipt
  rw [parse_render, Option.map_some, Receipt.codec.read_clean false hv]
  rfl

theorem foldlM_collectExpired {now : Time} {entries : List (Bytes × Bytes)}
    {init expired : List Bytes} :
    entries.foldlM (fun acc entry => collectExpired now acc entry.1 entry.2) init = .ok expired ↔
      (∀ entry ∈ entries, ∃ expiresAt, readReceipt entry.2 = .ok expiresAt) ∧
        expired = init ++ (entries.filter fun entry => !active now entry.2).map Prod.fst := by
  induction entries generalizing init with
  | nil => simp [pure, Except.pure, eq_comm]
  | cons entry entries ih =>
    rw [List.foldlM_cons, List.forall_mem_cons]
    cases hread : readReceipt entry.2 with
    | error e => simp [collectExpired, hread, bind, Except.bind]
    | ok expiresAt =>
      have hstep : collectExpired now init entry.1 entry.2 =
          .ok (if now < expiresAt then init else init ++ [entry.1]) := by
        simp only [collectExpired, hread, bind, Except.bind]
        rfl
      rw [hstep]
      change List.foldlM _ _ entries = _ ↔ _
      rw [ih, List.filter_cons, active_of_ok hread]
      by_cases hnow : now < expiresAt <;> simp [hnow]

def eraseAll (keys : List Bytes) (receipts : Collection) : Collection :=
  keys.foldl (fun receipts key => receipts.erase key) receipts

theorem deleteReceipts_ok {keys : List Bytes} {s s' : Store} {u : Unit} :
    deleteReceipts keys s = .ok (u, s') ↔ (∀ key ∈ keys, key ≠ []) ∧
      s' = Function.update s .ingressReceipts (eraseAll keys (s .ingressReceipts)) := by
  induction keys generalizing s with
  | nil => simp [deleteReceipts, eraseAll, Tx.pure_apply, eq_comm]
  | cons key keys ih =>
    have herase : eraseAll (key :: keys) (s .ingressReceipts) =
        eraseAll keys ((s .ingressReceipts).erase key) := rfl
    rw [deleteReceipts, Tx.bind_ok, List.forall_mem_cons, herase]
    constructor
    · rintro ⟨_, s1, hdelete, hrest⟩
      obtain ⟨-, hkey, rfl⟩ := Tx.delete_ok.mp hdelete
      obtain ⟨hkeys, rfl⟩ := ih.mp hrest
      refine ⟨⟨hkey, hkeys⟩, ?_⟩
      rw [Function.update_self, Function.update_idem]
    · rintro ⟨⟨hkey, hkeys⟩, rfl⟩
      refine ⟨(), _, Tx.delete_ok.mpr ⟨by decide, hkey, rfl⟩, ih.mpr ⟨hkeys, ?_⟩⟩
      rw [Function.update_self, Function.update_idem]

theorem lookup_eraseAll (keys : List Bytes) (receipts : Collection) (key : Bytes) :
    (eraseAll keys receipts)[key]? = if key ∈ keys then none else receipts[key]? := by
  unfold eraseAll
  induction keys generalizing receipts with
  | nil => simp
  | cons first keys ih =>
    rw [List.foldl_cons, ih, Std.ExtTreeMap.getElem?_erase]
    by_cases hkey : key ∈ keys
    · simp [hkey]
    · by_cases heq : key = first
      · subst heq
        simp
      · have hne : compare first key ≠ .eq := fun h => heq (Std.LawfulEqCmp.eq_of_compare h).symm
        simp [hkey, heq, hne]

def expiredKeys (now : Time) (receipts : Collection) : List Bytes :=
  (receipts.toList.filter fun entry => !active now entry.2).map Prod.fst

theorem mem_expiredKeys {now : Time} {receipts : Collection} {key : Bytes} :
    key ∈ expiredKeys now receipts ↔ ∃ old, receipts[key]? = some old ∧ active now old = false := by
  simp only [expiredKeys, List.mem_map, List.mem_filter,
    Std.ExtTreeMap.mem_toList_iff_getElem?_eq_some, Bool.not_eq_true', Prod.exists,
    exists_and_right, exists_eq_right]

theorem lookup_sweep (now : Time) (receipts : Collection) (key : Bytes) :
    (eraseAll (expiredKeys now receipts) receipts)[key]? = receipts[key]?.filter (active now) := by
  rw [lookup_eraseAll]
  cases hold : receipts[key]? with
  | none => simp
  | some old =>
    by_cases hactive : active now old = true
    · have hnot : key ∉ expiredKeys now receipts := by
        rw [mem_expiredKeys, hold]
        rintro ⟨_, heq, hinactive⟩
        cases heq
        rw [hactive] at hinactive
        cases hinactive
      rw [if_neg hnot, Option.filter_some_pos hactive]
    · have hinactive : active now old = false := by simpa using hactive
      rw [if_pos (mem_expiredKeys.mpr ⟨old, hold, hinactive⟩), Option.filter_some_neg hinactive]

/-- The receipts that a sweep leaves. -/
structure Sweeps (id : Bytes) (now : Time) (document : Bytes) (s s' : Store) : Prop where
  readable : ∀ key old : Bytes, (s .ingressReceipts)[key]? = some old → ∃ expiresAt,
    readReceipt old = .ok expiresAt
  expired : (s .ingressReceipts)[id]?.filter (active now) = none
  receipts : ∀ key : Bytes, (s' .ingressReceipts)[key]? =
    if key = id then some document else (s .ingressReceipts)[key]?.filter (active now)

theorem storeReceipt_ok {id document : Bytes} {now : Time} {s s' : Store} {u : Unit}
    (h : storeReceipt id now document s = .ok (u, s')) : Sweeps id now document s s' := by
  obtain ⟨expired, hscan, h⟩ := Tx.bind_forEach_ok.mp h
  obtain ⟨hreadable, rfl⟩ := foldlM_collectExpired.mp hscan
  obtain ⟨_, s1, hdelete, h⟩ := Tx.bind_ok.mp h
  obtain ⟨-, rfl⟩ := deleteReceipts_ok.mp hdelete
  obtain ⟨-, h⟩ := Tx.bind_get_ok.mp h
  obtain ⟨habsent, hput⟩ := Tx.bind_require_ok.mp h
  obtain ⟨-, -, rfl⟩ := Tx.put_ok.mp hput
  rw [Function.update_self] at habsent
  refine ⟨fun key old hold => hreadable (key, old)
    (Std.ExtTreeMap.mem_toList_iff_getElem?_eq_some.mpr hold),
    (lookup_sweep now (s .ingressReceipts) id).symm.trans habsent, fun key => ?_⟩
  rw [Function.update_self, Function.update_self, Std.ExtTreeMap.getElem?_insert]
  by_cases hkey : key = id
  · subst hkey
    rw [if_pos Std.ReflCmp.compare_self, if_pos rfl]
  · rw [if_neg fun h => hkey (Std.LawfulEqCmp.eq_of_compare h).symm, if_neg hkey]
    exact lookup_sweep now (s .ingressReceipts) key

/-- The ID is free at this reading, and every receipt can be swept. -/
structure Receptive (id : Bytes) (now : Time) (s : Store) : Prop where
  readable : ∀ key old : Bytes, (s .ingressReceipts)[key]? = some old → key ≠ [] ∧ ∃ expiresAt,
    readReceipt old = .ok expiresAt
  expired : (s .ingressReceipts)[id]?.filter (active now) = none

namespace Receptive

variable {id : Bytes} {now : Time} {s : Store} (h : Receptive id now s) (hid : id ≠ [])
include h hid

theorem view : hasActiveReceipt id now s = .ok (false, s) := by
  refine Tx.bind_get_ok.mpr ⟨hid, ?_⟩
  cases hold : (s .ingressReceipts)[id]? with
  | none => rfl
  | some old =>
    obtain ⟨-, expiresAt, hread⟩ := h.readable id old hold
    have hexpired : ¬now < expiresAt := fun hlt => by
      have := h.expired
      rw [hold, Option.filter_some_pos ((active_of_ok hread).trans (decide_eq_true hlt))] at this
      cases this
    refine Tx.bind_liftExcept_ok.mpr ⟨expiresAt, hread, ?_⟩
    rw [decide_eq_false hexpired]
    rfl

theorem store (document : Bytes) : ∃ s', storeReceipt id now document s = .ok ((), s') := by
  let swept := Function.update s .ingressReceipts
    (eraseAll (expiredKeys now (s .ingressReceipts)) (s .ingressReceipts))
  have hscan : (s .ingressReceipts).toList.foldlM
      (fun acc entry => collectExpired now acc entry.1 entry.2) [] =
        .ok (expiredKeys now (s .ingressReceipts)) :=
    foldlM_collectExpired.mpr ⟨fun entry hentry => (h.readable entry.1 entry.2
      (Std.ExtTreeMap.mem_toList_iff_getElem?_eq_some.mp hentry)).2, rfl⟩
  have hdelete : deleteReceipts (expiredKeys now (s .ingressReceipts)) s = .ok ((), swept) := by
    refine deleteReceipts_ok.mpr ⟨fun key hkey => ?_, rfl⟩
    obtain ⟨old, hold, -⟩ := mem_expiredKeys.mp hkey
    exact (h.readable key old hold).1
  have habsent : (swept .ingressReceipts)[id]? = none := by
    simp only [swept, Function.update_self, lookup_sweep]
    exact h.expired
  have hput : Tx.put .ingressReceipts id document swept =
      .ok ((), Function.update swept
        .ingressReceipts ((swept .ingressReceipts).insert id document)) :=
    Tx.put_ok.mpr ⟨by decide, hid, rfl⟩
  exact ⟨_, Tx.bind_forEach_ok.mpr ⟨_, hscan, Tx.bind_ok.mpr ⟨(), swept, hdelete,
    Tx.bind_get_ok.mpr ⟨hid, Tx.bind_require_ok.mpr ⟨habsent, hput⟩⟩⟩⟩⟩

end Receptive

theorem Sweeps.receptive {id document : Bytes} {now later expiresAt : Time} {s s' : Store}
    (h : Sweeps id now document s s') (hid : id ≠ []) (hkeys : Receptive id now s)
    (hread : readReceipt document = .ok expiresAt) (hle : expiresAt ≤ later) :
    Receptive id later s' where
  readable key old hold := by
    rw [h.receipts] at hold
    split at hold
    case isTrue heq =>
      cases hold
      exact ⟨heq ▸ hid, expiresAt, hread⟩
    case isFalse => exact hkeys.readable key old (Option.filter_eq_some_iff.mp hold).1
  expired := by
    rw [h.receipts, if_pos rfl]
    exact Option.filter_some_neg ((active_of_ok hread).trans (decide_eq_false (not_lt.mpr hle)))

/-! ## The calls of one thread -/

structure Stores (x : Occurrence interface) (id : Bytes) (now : Time)
    (document : Bytes) : Prop where
  op : x.op = Op.tx (.storeReceipt id now document)
  sweeps : Sweeps id now document x.before x.after

def Untouched (x : Occurrence interface) : Prop :=
  x.after .ingressReceipts = x.before .ingressReceipts

theorem keeps_hasActiveReceipt (id : Bytes) (now : Time) :
    Tx.Keeps .ingressReceipts (hasActiveReceipt id now) := by
  refine .bind (.get _ _) fun found => ?_
  cases found with
  | none => exact .pure _
  | some document => exact .bind (.liftExcept _) fun _ => .pure _

theorem keeps_recordRejected (eventID : Bytes) (now : Time) (reason : Bytes) :
    Tx.Keeps .ingressReceipts (Transaction.recordRejected eventID now reason).body := by
  intro s a s' h
  obtain ⟨event, s1, happend, h⟩ := Tx.bind_ok.mp h
  cases h
  obtain ⟨state, s2, document, -, -, happly, -, -, -, -, rfl⟩ := Audit.append_ok happend
  cases happly
  exact Function.update_of_ne (by decide) _ _

theorem stores_or_untouched (x : Occurrence interface) :
    (∃ id now document, Stores x id now document) ∨ Untouched x := by
  obtain ⟨o, answer, before⟩ := x
  cases o with
  | tx t =>
    have hafter : (⟨.tx t, answer, before⟩ : Occurrence interface).after =
        (t.run (Environment.fault answer) before).2 := rfl
    cases hresult : (t.run (Environment.fault answer) before).1 with
    | error e =>
      refine .inr ?_
      rw [Untouched, hafter, Transaction.run_error hresult]
    | ok a =>
      have hbody := Transaction.run_ok hresult
      cases t with
      | hasActiveReceipt id now => exact .inr (keeps_hasActiveReceipt id now _ _ _ hbody)
      | storeReceipt id now document => exact .inl ⟨id, now, document, rfl, storeReceipt_ok hbody⟩
      | recordRejected eventID now reason =>
        exact .inr (keeps_recordRejected eventID now reason _ _ _ hbody)
  | _ => exact .inr rfl

def readings (h : History) : List Time :=
  h.filterMap fun x =>
    match (x.op : Op) with
    | .clock => some (Environment.now x.answer)
    | _ => none

/-- A thread whose call was accepted: one reading, at which the signature was verified, and one
receipt, stored at the end. -/
structure Accepted (c : Call) (h : History) (now : Time) (document : Bytes)
    (last : Occurrence interface)
    (earlier : History) : Prop where
  history : h = last :: earlier
  stores : Stores last c.headers.id now document
  earlier : ∀ x ∈ earlier, Untouched x
  reading : readings h = [now]
  fits : c.raw.length ≤ c.ingress.maxBody.toInt
  verified : c.ingress.keyring.verify c.headers c.raw now = .ok ()
  decodes : ∃ value, decode c.raw = .ok value
  receipt : Receipt.codec.marshal ⟨now.add c.ingress.retention⟩ = some document

def Outcome (c : Call) (h : History) (result : Except Error Normalized) : Prop :=
  (∀ e, result = .error e → ∀ x ∈ h, Untouched x) ∧
    ∀ n, result = .ok n → ∃ now document last earlier, Accepted c h now document last earlier

section Thread

variable {h : History}

theorem untouched_cons {o : Op} (ho : ∀ id now document, o ≠ .tx (.storeReceipt id now document))
    (env : Environment) (s : Store) (hun : ∀ x ∈ h, Untouched x) :
    ∀ x ∈ (⟨o, env, s⟩ : Occurrence interface) :: h, Untouched x := by
  refine List.forall_mem_cons.mpr ⟨?_, hun⟩
  rcases stores_or_untouched ⟨o, env, s⟩ with ⟨id, now, document, hstores⟩ | huntouched
  · exact absurd hstores.op (ho id now document)
  · exact huntouched

theorem outcome_error {c : Call} (hun : ∀ x ∈ h, Untouched x) (e : Error) :
    Outcome c h (.error e) :=
  ⟨fun _ _ => hun, fun _ heq => by cases heq⟩

theorem sat_reject {c : Call} (now : Time) (reason : Bytes) (e : Error)
    (hun : ∀ x ∈ h, Untouched x) :
    (reject now reason e).Sat (fun _ _ => True) (Outcome c) h := by
  refine .call_bind trivial fun env s => ?_
  have hun1 := untouched_cons (o := .newAuditID) (fun _ _ _ heq => by cases heq) env s hun
  split
  case h_1 => exact outcome_error hun1 _
  case h_2 eventID _ =>
    refine .call_bind trivial fun env s => ?_
    have hun2 := untouched_cons (o := .tx (.recordRejected eventID now reason))
      (fun _ _ _ heq => by cases heq) env s hun1
    split
    case h_1 => exact outcome_error hun2 _
    case h_2 => exact outcome_error hun2 _

theorem sat_normalize (value : Incoming) (now : Time) (hun : ∀ x ∈ h, Untouched x) :
    (normalize value now).Sat (fun _ _ => True)
      (fun h' _ => (∀ x ∈ h', Untouched x) ∧ readings h' = readings h) h := by
  refine .call_bind trivial fun env s => ?_
  have hun1 := untouched_cons (o := .snapshot) (fun _ _ _ heq => by cases heq) env s hun
  refine .ite (fun _ => ⟨hun1, rfl⟩) fun _ => .call_bind trivial fun env s => ?_
  have hun2 := untouched_cons (o := .newID) (fun _ _ _ heq => by cases heq) env s hun1
  split
  case h_1 => exact ⟨hun2, rfl⟩
  case h_2 => exact ⟨hun2, rfl⟩

variable {c : Call} {now : Time} (hun : ∀ x ∈ h, Untouched x) (hreading : readings h = [now])
  (hfits : c.raw.length ≤ c.ingress.maxBody.toInt)
  (hverified : c.ingress.keyring.verify c.headers c.raw now = .ok ())
include hun hreading hfits hverified

theorem sat_admit {value : Incoming} (hdecode : decode c.raw = .ok value)
    (normalized : Normalized) :
    (c.ingress.acceptNormalized c.headers.id now normalized).Sat (fun _ _ => True)
    (Outcome c) h := by
  unfold Ingress.acceptNormalized
  split
  case h_1 => exact outcome_error hun _
  case h_2 document hdocument =>
    refine .call_bind trivial fun env s => ?_
    split
    case h_1 e hresult =>
      refine outcome_error (List.forall_mem_cons.mpr ⟨?_, hun⟩) _
      exact congrFun (Transaction.run_error hresult) _
    case h_2 u hresult =>
      refine ⟨fun _ heq => (by cases heq), fun _ _ => ⟨now, document, _, h, rfl, ⟨rfl, ?_⟩, hun,
        hreading, hfits, hverified, ⟨value, hdecode⟩, hdocument⟩⟩
      exact storeReceipt_ok (Transaction.run_ok hresult)

theorem sat_acceptVerified :
    (c.ingress.acceptVerified c.headers.id c.raw now).Sat (fun _ _ => True) (Outcome c) h := by
  refine .call_bind trivial fun env s => ?_
  have hun1 := untouched_cons (o := .ctxErr) (fun _ _ _ heq => by cases heq) env s hun
  split
  case h_1 => exact outcome_error hun1 _
  case h_2 =>
    refine .call_bind trivial fun env s => ?_
    have hun2 := untouched_cons (o := .tx (.hasActiveReceipt c.headers.id now))
      (fun _ _ _ heq => by cases heq) env s hun1
    split
    case h_1 => exact outcome_error hun2 _
    case h_2 => exact outcome_error hun2 _
    case h_3 =>
      split
      case h_1 => exact sat_reject _ _ _ hun2
      case h_2 value hdecode =>
        refine (sat_normalize _ now hun2).bind fun h' result hresult => ?_
        cases result with
        | error e => exact sat_reject _ _ _ hresult.1
        | ok normalized =>
          exact sat_admit hresult.1 (hresult.2.trans hreading) hfits hverified hdecode normalized

end Thread

theorem sat_accept (c : Call) :
    (c.ingress.accept c.headers c.raw).Sat (fun _ _ => True) (Outcome c) [] := by
  have hnil : ∀ x ∈ ([] : History), Untouched x := fun x hx => by cases hx
  refine .ite (fun _ => outcome_error hnil _) fun hbody => .call_bind trivial fun env s => ?_
  have hfits : c.raw.length ≤ c.ingress.maxBody.toInt := not_lt.mp fun hlt => hbody (.inr hlt)
  have hun1 := untouched_cons (o := .ctxErr) (fun _ _ _ heq => by cases heq) env s hnil
  split
  case h_1 => exact outcome_error hun1 _
  case h_2 =>
    refine .call_bind trivial fun env' s' => ?_
    have hun2 := untouched_cons (o := .clock) (fun _ _ _ heq => by cases heq) env' s' hun1
    refine .ite (fun _ => outcome_error hun2 _) fun _ => ?_
    split
    case h_1 => exact sat_reject _ _ _ hun2
    case h_2 hverified => exact sat_acceptVerified hun2 rfl hfits hverified

/-! ## Runs -/

def Returned (w : World system) (thread : Nat) (c : Call)
    (result : Except Error Normalized) : Prop :=
  w.threads[thread]? = some (c, some (.pure result))

/-- The readings of the calls that store a receipt are in the order of their commits. -/
def Ordered (log : List (Event interface)) : Prop :=
  log.Pairwise fun later earlier => ∀ id now document id' now' document',
    Stores later.toOccurrence id now document → Stores earlier.toOccurrence id' now' document' →
    now' ≤ now

/-- Up to this reading, only receipts that have expired are removed. -/
def Retains (now : Time) (s s' : Store) : Prop :=
  ∀ key old : Bytes, (s .ingressReceipts)[key]? = some old →
    (s' .ingressReceipts)[key]? = some old ∨ ∃ expiresAt, readReceipt old = .ok expiresAt ∧
      expiresAt ≤ now

theorem Retains.trans {now : Time} {a b c : Store} (h : Retains now a b) (h' : Retains now b c) :
    Retains now a c := fun key old hold => (h key old hold).elim (h' key old) .inr

theorem Retains.of_receipts {now : Time} {s s' : Store}
    (h : s' .ingressReceipts = s .ingressReceipts) : Retains now s s' := by
  intro key old hold
  rw [h]
  exact .inl hold

/-- The step lemma: a sweep takes what has expired. -/
theorem Sweeps.retains {id document : Bytes} {now later : Time} {s s' : Store}
    (h : Sweeps id now document s s') (hle : now ≤ later) : Retains later s s' := by
  intro key old hold
  obtain ⟨expiresAt, hread⟩ := h.readable key old hold
  by_cases hactive : now < expiresAt
  · have hfilter : (s .ingressReceipts)[key]?.filter (active now) = some old := by
      rw [hold]
      exact Option.filter_some_pos ((active_of_ok hread).trans (decide_eq_true hactive))
    have hne : key ≠ id := by
      rintro rfl
      rw [h.expired] at hfilter
      cases hfilter
    refine .inl ?_
    rw [h.receipts, if_neg hne, hfilter]
  · exact .inr ⟨expiresAt, hread, Int.le_trans (not_lt.mp hactive) hle⟩

section Runs

variable {s : Store} {actions : List (Action system)} (hordered : Ordered (run s actions).log)
include hordered

/-- The run lemma: a webhook ID is taken again only when its last receipt has expired. -/
theorem expired_of_stores {later middle rest : List (Event interface)} {e x : Event interface}
    (hlog : (run s actions).log = later ++ e :: (middle ++ x :: rest))
    {id document document' : Bytes}
    {now now' : Time} (hx : Stores x.toOccurrence id now document)
    (he : Stores e.toOccurrence id now' document') :
    ∃ expiresAt, readReceipt document = .ok expiresAt ∧ expiresAt ≤ now' := by
  have hbefore : ∀ y ∈ middle, Retains now' y.before y.after := by
    intro y hy
    rcases stores_or_untouched y.toOccurrence with ⟨id', now'', document'', hstores⟩ | huntouched
    · refine hstores.sweeps.retains ?_
      rw [hlog] at hordered
      have hpair := List.rel_of_pairwise_cons (List.pairwise_append.mp hordered).2.1
        (List.mem_append_left _ hy)
      exact hpair id now' document' id' now'' document'' he hstores
    · exact .of_receipts huntouched
  have hretains : Retains now' x.after e.before :=
    related_of_between (R := Retains now') (fun s => .of_receipts rfl) (fun h h' => h.trans h')
      (fun (m : Move) _ => .of_receipts
        (Function.update_of_ne (Ne.symm m.foreign) _ _)) hlog hbefore
  have hstored : (x.after .ingressReceipts)[id]? = some document :=
    (hx.sweeps.receipts id).trans (if_pos rfl)
  rcases hretains id document hstored with hkept | hexpired
  · obtain ⟨expiresAt, hread⟩ := he.sweeps.readable id document hkept
    refine ⟨expiresAt, hread, not_lt.mp fun hnow => ?_⟩
    have hfilter := he.sweeps.expired
    rw [hkept, Option.filter_some_pos ((active_of_ok hread).trans (decide_eq_true hnow))] at hfilter
    cases hfilter
  · exact hexpired

theorem add_retention_le {later middle rest : List (Event interface)} {e x : Event interface}
    (hlog : (run s actions).log = later ++ e :: (middle ++ x :: rest))
    {id document document' : Bytes}
    {now now' : Time} {retention : Duration} (hx : Stores x.toOccurrence id now document)
    (hreceipt : Receipt.codec.marshal ⟨now.add retention⟩ = some document)
    (he : Stores e.toOccurrence id now' document') : now.add retention ≤ now' := by
  obtain ⟨expiresAt, hread, hle⟩ := expired_of_stores hordered hlog hx he
  rw [readReceipt_marshal hreceipt] at hread
  split at hread
  case isTrue => cases hread
  case isFalse =>
    cases hread
    exact hle

theorem spaced_of_accepted {t t' : Nat} {c c' : Call} {now now' : Time} {document document' : Bytes}
    {last last' : Occurrence interface} {earlier earlier' : History} (hne : t ≠ t')
    (h : Accepted c (history t (run s actions).log) now document last earlier)
    (h' : Accepted c' (history t' (run s actions).log) now' document' last' earlier')
    (hid : c.headers.id = c'.headers.id) :
    now.add c.ingress.retention ≤ now' ∨ now'.add c'.ingress.retention ≤ now := by
  have hlast : last ∈ history t (run s actions).log := h.history ▸ List.mem_cons_self
  have hlast' : last' ∈ history t' (run s actions).log := h'.history ▸ List.mem_cons_self
  obtain ⟨e, he, rfl, hthread⟩ := mem_of_mem_history hlast
  obtain ⟨e', he', rfl, hthread'⟩ := mem_of_mem_history hlast'
  have hstores := h.stores
  rw [hid] at hstores
  -- the two commits are different events: one of them comes first
  obtain ⟨later, rest, hlog⟩ := List.append_of_mem he
  rw [hlog, List.mem_append, List.mem_cons] at he'
  rcases he' with hafter | heq | hbefore
  · obtain ⟨later', middle, rfl⟩ := List.append_of_mem hafter
    rw [List.append_assoc, List.cons_append] at hlog
    exact .inl (add_retention_le hordered hlog hstores h.receipt h'.stores)
  · exact absurd (hthread.symm.trans ((congrArg Event.thread heq).symm.trans hthread')) hne
  · obtain ⟨middle, rest', rfl⟩ := List.append_of_mem hbefore
    exact .inr (add_retention_le hordered hlog h'.stores h'.receipt hstores)

omit hordered in
theorem outcome_of_returned {t : Nat} {c : Call} {result : Except Error Normalized}
    (h : Returned (run s actions) t c result) : Outcome c (history t (run s actions).log) result :=
  (sat_of_run s actions fun call _ => sat_accept call).threads t c _ h

end Runs

end PulseAgent.Alert
