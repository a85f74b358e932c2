import PulseAgent.Audit.Append

/-!
# Transactions as programs

A callback of `Update` or `View` is any program over the transaction interface and `audit.Append`,
whose change is such a program again. It may go on after an operation failed.
-/

namespace PulseAgent.Audit

open Go Go.Json Contract

inductive Program where
  | ret (result : Except Error Unit)
  | get (bucket : Bucket) (key : Bytes) (next : Except Error (Option Bytes) → Program)
  | put (bucket : Bucket) (key value : Bytes) (next : Except Error Unit → Program)
  | delete (bucket : Bucket) (key : Bytes) (next : Except Error Unit → Program)
  | forEach (bucket : Bucket) (next : List (Bytes × Bytes) → Program)
  | appendAudit (key value : Bytes) (next : Except Error Unit → Program)
  /-- `audit.Append` without a change. -/
  | append (event : AuditEvent) (next : Except Error AuditEvent → Program)
  /-- `audit.Append` with one. -/
  | appendWith (event : AuditEvent) (change : Program) (next : Except Error AuditEvent → Program)

/-- What a program returned, the store it left in its transaction, and the event identifiers it
called `audit.Append` with. -/
structure Ran (α : Type) where
  result : Except Error α
  store : Store
  used : List Bytes

/-! ## The parts of an append around its change -/

def prepare (event : AuditEvent) : Tx ChainState := do
  let state ← readChain
  Tx.require (event.previousDigest = [] ∧ event.digest = []) errInvalidEvent
  Tx.liftExcept (validateEventFields event)
  pure state

def complete (event : AuditEvent) (state : ChainState) : Tx AuditEvent := do
  Tx.require (state.nextIndex ≠ maxUint64) errChainCapacity
  let linked := { event with previousDigest := state.previousDigest }
  let digest ← Tx.liftExcept (canonicalDigest linked)
  let appended := { linked with digest := digest }
  let document ← Tx.liftExcept (encode AuditEvent.codec "serialize audit event: " appended)
  Tx.context "store audit event: " (Tx.appendAudit (eventKey state.nextIndex) document)
  return appended

theorem append_eq (event : AuditEvent) (change : Option Mutation) : append event change = (do
    let state ← prepare event
    applyChange state change
    complete event state) := by
  unfold append prepare complete
  simp only [bind_assoc, pure_bind]

/-- The change of an append, after which the chain has to be the one read before. -/
def applyRan (state : ChainState) (change : Option (Store → Ran Unit)) (s : Store) : Ran Unit :=
  match change with
  | none => ⟨.ok (), s, []⟩
  | some change =>
    let r := change s
    match r.result with
    | .error e => { r with result := .error (.wrap "apply audited state change: " e "") }
    | .ok _ =>
      match readChain r.store with
      | .error e => { r with result := .error e }
      | .ok (afterChange, _) =>
        if afterChange = state then r else { r with result := .error errChainInvalid }

/-- `audit.Append`, which leaves behind what its change wrote also where it fails. -/
def appendRan (event : AuditEvent) (change : Option (Store → Ran Unit)) (s : Store) :
    Ran AuditEvent :=
  match prepare event s with
  | .error e => ⟨.error e, s, []⟩
  | .ok (state, _) =>
    let r := applyRan state change s
    match r.result with
    | .error e => ⟨.error e, r.store, r.used⟩
    | .ok _ =>
      match complete event state r.store with
      | .error e => ⟨.error e, r.store, r.used⟩
      | .ok (appended, s') => ⟨.ok appended, s', r.used⟩

namespace Program

/-- One operation of the transaction interface; a failed one leaves the store as it was. -/
def step {β : Type} (op : Tx β) (s : Store) (next : Except Error β → Store → Ran Unit) : Ran Unit :=
  match op s with
  | .ok (b, s') => next (.ok b) s'
  | .error e => next (.error e) s

def exec : Program → Store → Ran Unit
  | .ret result, s => ⟨result, s, []⟩
  | .get bucket key next, s => step (Tx.get bucket key) s fun r s => (next r).exec s
  | .put bucket key value next, s => step (Tx.put bucket key value) s fun r s => (next r).exec s
  | .delete bucket key next, s => step (Tx.delete bucket key) s fun r s => (next r).exec s
  | .forEach bucket next, s => (next (s bucket).toList).exec s
  | .appendAudit key value next, s =>
    step (Tx.appendAudit key value) s fun r s => (next r).exec s
  | .append event next, s =>
    let r := appendRan event none s
    let rest := (next r.result).exec r.store
    { rest with used := event.eventID :: (r.used ++ rest.used) }
  | .appendWith event change next, s =>
    let r := appendRan event (some fun s => change.exec s) s
    let rest := (next r.result).exec r.store
    { rest with used := event.eventID :: (r.used ++ rest.used) }

/-- All audit records the program writes go through `audit.Append`. -/
def Audited : Program → Prop
  | .ret _ => True
  | .get _ _ next => ∀ r, (next r).Audited
  | .put _ _ _ next => ∀ r, (next r).Audited
  | .delete _ _ next => ∀ r, (next r).Audited
  | .forEach _ next => ∀ entries, (next entries).Audited
  | .appendAudit .. => False
  | .append _ next => ∀ r, (next r).Audited
  | .appendWith _ change next => change.Audited ∧ ∀ r, (next r).Audited

end Program

/-! ## Records are kept -/

theorem applyRan_store (state : ChainState) (change : Store → Ran Unit) (s : Store) :
    (applyRan state (some change) s).store = (change s).store ∧
      (applyRan state (some change) s).used = (change s).used := by
  unfold applyRan
  dsimp only
  split
  · exact ⟨rfl, rfl⟩
  · split
    · exact ⟨rfl, rfl⟩
    · split <;> exact ⟨rfl, rfl⟩

theorem complete_ok {event appended : AuditEvent} {state : ChainState} {s s' : Store}
    (h : complete event state s = .ok (appended, s')) :
    ∃ document, (s .audit)[eventKey state.nextIndex]? = none ∧
      s' = Function.update s .audit ((s .audit).insert (eventKey state.nextIndex) document) := by
  obtain ⟨-, h⟩ := Tx.bind_require_ok.mp h
  obtain ⟨_, -, h⟩ := Tx.bind_liftExcept_ok.mp h
  obtain ⟨document, -, h⟩ := Tx.bind_liftExcept_ok.mp h
  obtain ⟨_, s2, hstore, hpure⟩ := Tx.bind_ok.mp h
  obtain ⟨-, hnone, rfl⟩ := Tx.appendAudit_ok.mp (Tx.context_ok.mp hstore)
  cases hpure
  exact ⟨document, hnone, rfl⟩

theorem auditKept_appendRan {change : Option (Store → Ran Unit)} {s : Store}
    (hchange : ∀ f, change = some f → AuditKept s (f s).store) (event : AuditEvent) :
    AuditKept s (appendRan event change s).store := by
  unfold appendRan
  split
  case h_1 => exact AuditKept.refl s
  case h_2 state _ _ =>
    have hkept : AuditKept s (applyRan state change s).store := by
      cases change with
      | none => exact AuditKept.refl s
      | some f =>
        rw [(applyRan_store state f s).1]
        exact hchange f rfl
    dsimp only
    split
    · exact hkept
    · split
      · exact hkept
      · rename_i appended s' hcomplete
        obtain ⟨document, hnone, rfl⟩ := complete_ok hcomplete
        exact hkept.trans (AuditKept.insert hnone)

namespace Program

theorem auditKept_step {β : Type} {op : Tx β} {s : Store}
    {next : Except Error β → Store → Ran Unit}
    (hop : ∀ b s', op s = .ok (b, s') → AuditKept s s')
    (hnext : ∀ r s', AuditKept s' (next r s').store) : AuditKept s (step op s next).store := by
  unfold step
  split
  case h_1 b s' hok => exact (hop b s' hok).trans (hnext _ _)
  case h_2 => exact hnext _ _

/-- The step lemma: no program changes or removes an audit record. -/
theorem auditKept_exec (p : Program) (s : Store) : AuditKept s (p.exec s).store := by
  induction p generalizing s with
  | ret result => exact AuditKept.refl s
  | get bucket key next ih =>
    refine auditKept_step (fun b s' hop => ?_) fun r s' => ih r s'
    obtain ⟨-, -, rfl⟩ := Tx.get_ok.mp hop
    exact AuditKept.refl _
  | put bucket key value next ih =>
    refine auditKept_step (fun b s' hop => ?_) fun r s' => ih r s'
    obtain ⟨hbucket, -, rfl⟩ := Tx.put_ok.mp hop
    exact AuditKept.of_ne hbucket
  | delete bucket key next ih =>
    refine auditKept_step (fun b s' hop => ?_) fun r s' => ih r s'
    obtain ⟨hbucket, -, rfl⟩ := Tx.delete_ok.mp hop
    exact AuditKept.of_ne hbucket
  | forEach bucket next ih => exact ih _ s
  | appendAudit key value next ih =>
    refine auditKept_step (fun b s' hop => ?_) fun r s' => ih r s'
    obtain ⟨-, hnone, rfl⟩ := Tx.appendAudit_ok.mp hop
    exact AuditKept.insert hnone
  | append event next ih =>
    exact (auditKept_appendRan (fun f hf => by cases hf) event).trans (ih _ _)
  | appendWith event change next ihchange ih =>
    refine (auditKept_appendRan (fun f hf => ?_) event).trans (ih _ _)
    cases hf
    exact ihchange s

end Program

/-! ## Appends keep a valid chain valid

The change of an append may append as well. The outer append then fails, since the chain moved, but
what the inner one recorded is still a valid chain. -/

/-- The chain grew by records whose identifiers are among the given ones. -/
def Grows (events : List AuditEvent) (s' : Store) (used : List Bytes) : Prop :=
  ∃ more, Chain s' (events ++ more) ∧ ∀ event ∈ more, event.eventID ∈ used

namespace Grows

variable {s s' : Store} {events : List AuditEvent} {used used' : List Bytes}

theorem refl (h : Chain s events) : Grows events s used :=
  ⟨[], by rwa [List.append_nil], by simp⟩

theorem mono (h : Grows events s used) (hsub : used ⊆ used') : Grows events s used' := by
  obtain ⟨more, hchain, hids⟩ := h
  exact ⟨more, hchain, fun event hmem => hsub (hids event hmem)⟩

end Grows

theorem prepare_ok {event : AuditEvent} {state : ChainState} {s s' : Store} :
    prepare event s = .ok (state, s') ↔ readChain s = .ok (state, s') ∧
      (event.previousDigest = [] ∧ event.digest = []) ∧ validateEventFields event = .ok () := by
  unfold prepare
  constructor
  · intro h
    obtain ⟨state', s1, hread, h⟩ := Tx.bind_ok.mp h
    obtain ⟨hnew, h⟩ := Tx.bind_require_ok.mp h
    obtain ⟨_, hfields, h⟩ := Tx.bind_liftExcept_ok.mp h
    cases h
    exact ⟨hread, hnew, hfields⟩
  · rintro ⟨hread, hnew, hfields⟩
    rw [Tx.bind_of_ok hread]
    exact Tx.bind_require_ok.mpr ⟨hnew, Tx.bind_liftExcept_ok.mpr ⟨(), hfields, rfl⟩⟩

/-- Completing a prepared append on a store with the same chain is an append of its own. -/
theorem append_of_complete {event appended : AuditEvent} {state : ChainState} {s s1 s' : Store}
    (hprepare : prepare event s = .ok (state, s)) (hread : readChain s1 = .ok (state, s1))
    (h : complete event state s1 = .ok (appended, s')) :
    append event none s1 = .ok (appended, s') := by
  obtain ⟨-, hnew, hfields⟩ := prepare_ok.mp hprepare
  rw [append_eq, Tx.bind_of_ok (prepare_ok.mpr ⟨hread, hnew, hfields⟩)]
  exact h

theorem grows_complete {event appended : AuditEvent} {state : ChainState} {s s1 s' : Store}
    {events : List AuditEvent} (hprepare : prepare event s = .ok (state, s))
    (hchain : Chain s1 events) (hread : readChain s1 = .ok (state, s1))
    (hfresh : event.eventID ∉ events.map AuditEvent.eventID)
    (h : complete event state s1 = .ok (appended, s')) : Grows events s' [event.eventID] := by
  have happend := append_of_complete hprepare hread h
  obtain ⟨_, -, hrecords, hid, -⟩ := append_records hchain happend
  refine ⟨[appended], ⟨hrecords, ?_⟩, ?_⟩
  · rw [List.map_append, List.nodup_append]
    refine ⟨hchain.2, List.nodup_singleton _, ?_⟩
    rintro a ha b hb rfl
    rw [List.map_singleton, List.mem_singleton, hid] at hb
    exact hfresh (hb ▸ ha)
  · intro other hmem
    rw [List.mem_singleton] at hmem
    rw [hmem, hid]
    exact List.mem_singleton_self _

theorem grows_of_same {events : List AuditEvent} {s1 : Store} {state : ChainState}
    {used : List Bytes} (hgrows : Grows events s1 used)
    (hstate : state.nextIndex = events.length) (hread : readChain s1 = .ok (state, s1)) :
    Chain s1 events := by
  obtain ⟨more, hchain, -⟩ := hgrows
  obtain ⟨events1, hchain1, -, rfl⟩ := readChain_ok.mp hread
  have heq : events1 = events ++ more := hchain1.log_eq.symm.trans hchain.log_eq
  have hmore : more = [] := by
    have hlength : events1.length = events.length := hstate
    rw [heq, List.length_append] at hlength
    exact List.eq_nil_of_length_eq_zero (by omega)
  rw [hmore, List.append_nil] at hchain
  exact hchain

theorem readChain_applyRan {state : ChainState} {change : Store → Ran Unit} {s : Store} {u : Unit}
    (h : (applyRan state (some change) s).result = .ok u) :
    readChain (applyRan state (some change) s).store =
      .ok (state, (applyRan state (some change) s).store) := by
  rw [(applyRan_store state change s).1]
  unfold applyRan at h
  dsimp only at h
  split at h
  · cases h
  · split at h
    · cases h
    · rename_i afterChange s' hread
      split at h
      · rename_i hsame
        obtain ⟨events, -, rfl, -⟩ := readChain_ok.mp hread
        rw [hread, hsame]
      · cases h

theorem appendRan_used {event : AuditEvent} {state : ChainState} {change : Store → Ran Unit}
    {s s' : Store} (h : prepare event s = .ok (state, s')) :
    (appendRan event (some change) s).used = (change s).used := by
  rw [← (applyRan_store state change s).2]
  unfold appendRan
  rw [h]
  dsimp only
  split
  · rfl
  · split <;> rfl

theorem grows_appendRan {event : AuditEvent} {change : Option (Store → Ran Unit)} {s : Store}
    {events : List AuditEvent} (hchain : Chain s events)
    (hfresh : event.eventID ∉ events.map AuditEvent.eventID)
    (hchange : ∀ f, change = some f → (appendRan event change s).used = (f s).used →
      Grows events (f s).store (f s).used) :
    Grows events (appendRan event change s).store
      (event.eventID :: (appendRan event change s).used) := by
  cases hprepare : prepare event s with
  | error e =>
    unfold appendRan
    rw [hprepare]
    exact Grows.refl hchain
  | ok prepared =>
    obtain ⟨state, s0⟩ := prepared
    obtain ⟨hread, -⟩ := prepare_ok.mp hprepare
    obtain ⟨events', hchain', rfl, hstate⟩ := readChain_ok.mp hread
    obtain rfl : events' = events := hchain'.log_eq.symm.trans hchain.log_eq
    have hrefl : Grows events' s0 [] := Grows.refl hchain
    have hran : Grows events' (applyRan state change s0).store (applyRan state change s0).used := by
      cases change with
      | none => exact hrefl
      | some f =>
        rw [(applyRan_store state f s0).1, (applyRan_store state f s0).2]
        exact hchange f rfl (appendRan_used hprepare)
    unfold appendRan
    rw [hprepare]
    dsimp only
    split
    · exact hran.mono (List.subset_cons_self _ _)
    · rename_i hok
      split
      · exact hran.mono (List.subset_cons_self _ _)
      · rename_i appended s' hcomplete
        have hsame : readChain (applyRan state change s0).store =
            .ok (state, (applyRan state change s0).store) := by
          cases change with
          | none => exact hread
          | some f => exact readChain_applyRan hok
        have hkept := grows_of_same hran (congrArg ChainState.nextIndex hstate) hsame
        exact (grows_complete hprepare hkept hsame hfresh hcomplete).mono (by simp)

/-- Identifiers that differ from each other and from those of the chain. -/
def Fresh (events : List AuditEvent) (used : List Bytes) : Prop :=
  used.Nodup ∧ ∀ id ∈ used, id ∉ events.map AuditEvent.eventID

theorem Fresh.sublist {events : List AuditEvent} {used used' : List Bytes} (h : Fresh events used)
    (hsub : used'.Sublist used) : Fresh events used' :=
  ⟨h.1.sublist hsub, fun id hid => h.2 id (hsub.subset hid)⟩

theorem Fresh.advance {events more : List AuditEvent} {used used' : List Bytes}
    (h : Fresh events (used ++ used')) (hids : ∀ event ∈ more, event.eventID ∈ used) :
    Fresh (events ++ more) used' := by
  obtain ⟨-, hnodup, hdisjoint⟩ := List.nodup_append.mp h.1
  refine ⟨hnodup, fun id hid hmem => ?_⟩
  rw [List.map_append, List.mem_append] at hmem
  rcases hmem with hold | hadded
  · exact h.2 id (List.mem_append_right _ hid) hold
  · obtain ⟨event, hevent, rfl⟩ := List.mem_map.mp hadded
    exact hdisjoint _ (hids event hevent) _ hid rfl

theorem Grows.trans {s t : Store} {events : List AuditEvent} {used used' : List Bytes}
    (h : Grows events s used) (hfresh : Fresh events (used ++ used'))
    (hnext : ∀ events', Chain s events' → Fresh events' used' → Grows events' t used') :
    Grows events t (used ++ used') := by
  obtain ⟨more, hchain, hids⟩ := h
  obtain ⟨later, hlater, hlaterIDs⟩ := hnext _ hchain (hfresh.advance hids)
  refine ⟨more ++ later, by rwa [← List.append_assoc], ?_⟩
  intro event hmem
  rcases List.mem_append.mp hmem with hmore | hmem
  · exact List.mem_append_left _ (hids event hmore)
  · exact List.mem_append_right _ (hlaterIDs event hmem)

namespace Program

theorem grows_step {β : Type} {op : Tx β} {s : Store} {events : List AuditEvent}
    {next : Except Error β → Store → Ran Unit} (hchain : Chain s events)
    (hop : Tx.Keeps .audit op) (hfresh : Fresh events (step op s next).used)
    (hnext : ∀ r s', Chain s' events → Fresh events (next r s').used →
      Grows events (next r s').store (next r s').used) :
    Grows events (step op s next).store (step op s next).used := by
  have hsame : ∃ r s', step op s next = next r s' ∧ Chain s' events := by
    unfold step
    cases hx : op s with
    | error e => exact ⟨.error e, s, rfl, hchain⟩
    | ok result =>
      refine ⟨.ok result.1, result.2, rfl, ?_⟩
      unfold Chain
      rw [hop s result.1 result.2 hx]
      exact hchain
  obtain ⟨r, s', heq, hchain'⟩ := hsame
  rw [heq] at hfresh ⊢
  exact hnext r s' hchain' hfresh

theorem grows_append {event : AuditEvent} {r : Ran AuditEvent} {rest : Ran Unit}
    {events : List AuditEvent} (hfresh : Fresh events (event.eventID :: (r.used ++ rest.used)))
    (happend : Grows events r.store (event.eventID :: r.used))
    (hrest : ∀ events', Chain r.store events' → Fresh events' rest.used →
      Grows events' rest.store rest.used) :
    Grows events rest.store (event.eventID :: (r.used ++ rest.used)) := by
  rw [← List.cons_append] at hfresh ⊢
  exact happend.trans hfresh hrest

/-- What one program adds to a valid chain keeps it valid, whatever failed in between. -/
theorem grows_exec {p : Program} (hp : p.Audited) {s : Store} {events : List AuditEvent}
    (hchain : Chain s events) (hfresh : Fresh events (p.exec s).used) :
    Grows events (p.exec s).store (p.exec s).used := by
  induction p generalizing s events with
  | ret result => exact Grows.refl hchain
  | get bucket key next ih =>
    exact grows_step hchain (Tx.Keeps.get bucket key) hfresh fun r s' => ih r (hp r)
  | put bucket key value next ih =>
    refine grows_step hchain (fun s a s' h => ?_) hfresh fun r s' => ih r (hp r)
    obtain ⟨hbucket, -, rfl⟩ := Tx.put_ok.mp h
    exact Function.update_of_ne (Ne.symm hbucket) _ _
  | delete bucket key next ih =>
    refine grows_step hchain (fun s a s' h => ?_) hfresh fun r s' => ih r (hp r)
    obtain ⟨hbucket, -, rfl⟩ := Tx.delete_ok.mp h
    exact Function.update_of_ne (Ne.symm hbucket) _ _
  | forEach bucket next ih => exact ih _ (hp _) hchain hfresh
  | appendAudit key value next => exact hp.elim
  | append event next ih =>
    refine grows_append hfresh ?_ fun events' => ih _ (hp _)
    have hnew : event.eventID ∉ events.map AuditEvent.eventID := hfresh.2 _ List.mem_cons_self
    exact grows_appendRan hchain hnew fun f hf => by cases hf
  | appendWith event change next ihchange ih =>
    refine grows_append hfresh ?_ fun events' => ih _ (hp.2 _)
    have hnew : event.eventID ∉ events.map AuditEvent.eventID := hfresh.2 _ List.mem_cons_self
    refine grows_appendRan hchain hnew fun f hf hused => ?_
    cases hf
    -- the identifiers the change used are among those of the program
    refine ihchange hp.1 hchain (hfresh.sublist ?_)
    rw [← hused]
    exact (List.sublist_append_left _ _).cons _

end Program

/-! ## Runs of transactions -/

inductive Transaction where
  /-- `Update`, whose commit may fail after its callback returned. -/
  | update (callback : Program) (fault : Option Error)
  | view (callback : Program)

namespace Transaction

/-- The error `Update` returns; where it returns one the transaction was rolled back. -/
def failure (callback : Program) (fault : Option Error) (s : Store) : Option Error :=
  match (callback.exec s).result with
  | .error e => some e
  | .ok _ => fault

def apply (s : Store) : Transaction → Store
  | .update callback fault =>
    match failure callback fault s with
    | some _ => s
    | none => (callback.exec s).store
  | .view _ => s

def used (s : Store) : Transaction → List Bytes
  | .update callback fault =>
    match failure callback fault s with
    | some _ => []
    | none => (callback.exec s).used
  | .view _ => []

def Audited : Transaction → Prop
  | .update callback _ => callback.Audited
  | .view _ => True

def run (s : Store) (transactions : List Transaction) : Store := transactions.foldl apply s

def usedIDs : Store → List Transaction → List Bytes
  | _, [] => []
  | s, t :: rest => t.used s ++ usedIDs (apply s t) rest

theorem run_append (s : Store) (earlier later : List Transaction) :
    run s (earlier ++ later) = run (run s earlier) later := List.foldl_append

theorem usedIDs_append (s : Store) (earlier later : List Transaction) :
    usedIDs s (earlier ++ later) = usedIDs s earlier ++ usedIDs (run s earlier) later := by
  induction earlier generalizing s with
  | nil => rfl
  | cons t rest ih =>
    rw [List.cons_append, usedIDs, ih, usedIDs, List.append_assoc]
    rfl

theorem apply_of_failure {callback : Program} {fault : Option Error} {s : Store} {e : Error}
    (h : failure callback fault s = some e) : apply s (.update callback fault) = s := by
  rw [apply, h]

theorem auditKept_apply (s : Store) (t : Transaction) : AuditKept s (apply s t) := by
  cases t with
  | view callback => exact AuditKept.refl s
  | update callback fault =>
    rw [apply]
    cases failure callback fault s with
    | some e => exact AuditKept.refl s
    | none => exact callback.auditKept_exec s

theorem auditKept_run (s : Store) (transactions : List Transaction) :
    AuditKept s (run s transactions) := by
  induction transactions generalizing s with
  | nil => exact AuditKept.refl s
  | cons t rest ih => exact (auditKept_apply s t).trans (ih (apply s t))

theorem grows_apply {t : Transaction} (ht : t.Audited) {s : Store} {events : List AuditEvent}
    (hchain : Chain s events) (hfresh : Fresh events (t.used s)) :
    Grows events (apply s t) (t.used s) := by
  cases t with
  | view callback => exact Grows.refl hchain
  | update callback fault =>
    rw [used] at hfresh ⊢
    rw [apply]
    cases hfail : failure callback fault s with
    | some e => exact Grows.refl hchain
    | none =>
      rw [hfail] at hfresh
      exact Program.grows_exec ht hchain hfresh

/-- The run lemma: a whole run only adds to a valid chain. -/
theorem grows_run {transactions : List Transaction} (haudited : ∀ t ∈ transactions, t.Audited)
    {s : Store} {events : List AuditEvent} (hchain : Chain s events)
    (hfresh : Fresh events (usedIDs s transactions)) :
    Grows events (run s transactions) (usedIDs s transactions) := by
  induction transactions generalizing s events with
  | nil => exact Grows.refl hchain
  | cons t rest ih =>
    obtain ⟨ht, hrest⟩ := List.forall_mem_cons.mp haudited
    have hstep := grows_apply ht hchain (hfresh.sublist (List.sublist_append_left _ _))
    exact hstep.trans hfresh fun events' => ih hrest

/-- The log is append-only. Between any two points of a run no record changes or goes. Where every
record is written by `audit.Append` and no event identifier comes twice, the log at the first
point is a valid chain and a prefix of the valid chain at the second. A callback that returns an
error, an append's among them, leaves every bucket as it was. -/
theorem append_only (s : Store) (earlier later : List Transaction) :
    AuditKept (run s earlier) (run s (earlier ++ later)) ∧
    (validateChain s = .ok ((), s) → (∀ t ∈ earlier ++ later, t.Audited) →
      Fresh (log s) (usedIDs s (earlier ++ later)) →
      validateChain (run s earlier) = .ok ((), run s earlier) ∧
      validateChain (run s (earlier ++ later)) = .ok ((), run s (earlier ++ later)) ∧
      log (run s earlier) <+: log (run s (earlier ++ later))) ∧
    (∀ callback fault e, (callback.exec (run s earlier)).result = .error e →
      apply (run s earlier) (.update callback fault) = run s earlier) ∧
    ∀ event change next fault e,
      (appendRan event (some fun s => Program.exec change s) (run s earlier)).result = .error e →
      next (.error e) = .ret (.error e) →
      apply (run s earlier) (.update (.appendWith event change next) fault) = run s earlier := by
  have hreturned : ∀ callback fault e, (Program.exec callback (run s earlier)).result = .error e →
      apply (run s earlier) (.update callback fault) = run s earlier := by
    intro callback fault e h
    apply apply_of_failure (e := e)
    rw [failure, h]
  refine ⟨?_, ?_, hreturned, ?_⟩
  · rw [run_append]
    exact auditKept_run _ _
  · intro hvalid haudited hfresh
    obtain ⟨events, hchain, -⟩ := validateChain_ok.mp hvalid
    rw [hchain.log_eq, usedIDs_append] at hfresh
    obtain ⟨hbefore, hafter⟩ := List.forall_mem_append.mp haudited
    -- the first point is where `earlier` leads; `later` then grows from there
    have hfirst : Grows events (run s earlier) (usedIDs s earlier) :=
      grows_run hbefore hchain (hfresh.sublist (List.sublist_append_left _ _))
    obtain ⟨more, hmid, hids⟩ := hfirst
    have hlater : Fresh (events ++ more) (usedIDs (run s earlier) later) :=
      hfresh.advance hids
    obtain ⟨added, hend, -⟩ := grows_run hafter hmid hlater
    rw [← run_append] at hend
    refine ⟨validateChain_ok.mpr ⟨_, hmid, rfl⟩, validateChain_ok.mpr ⟨_, hend, rfl⟩, ?_⟩
    rw [hmid.log_eq, hend.log_eq]
    exact List.prefix_append _ _
  · intro event change next fault e happend hnext
    apply hreturned _ _ e
    rw [Program.exec]
    dsimp only
    rw [happend, hnext]
    rfl

def recordEvent (eventID : Bytes) : Transaction :=
  .update (.append (smallEvent eventID) fun r => .ret (r.map fun _ => ())) none

theorem used_recordEvent (eventID : Bytes) (s : Store) :
    (used s (recordEvent eventID)).Sublist [eventID] := by
  rw [recordEvent, used]
  split
  · exact List.nil_sublist _
  · have hused : (appendRan (smallEvent eventID) none s).used = [] := by
      unfold appendRan
      split
      · rfl
      · dsimp only [applyRan]
        split <;> rfl
    rw [Program.exec, hused]
    exact List.Sublist.refl _

theorem append_only_two_events :
    validateChain Store.empty = .ok ((), Store.empty) ∧
    log (run Store.empty [recordEvent (lit "e")]) <+:
      log (run Store.empty [recordEvent (lit "e"), recordEvent (lit "f")]) := by
  have hvalid : validateChain Store.empty = .ok ((), Store.empty) :=
    validateChain_ok.mpr ⟨[], chain_empty, rfl⟩
  refine ⟨hvalid, ?_⟩
  have haudited : ∀ t ∈ [recordEvent (lit "e")] ++ [recordEvent (lit "f")], t.Audited := by
    intro t ht
    rcases List.mem_pair.mp ht with rfl | rfl <;> exact fun _ => trivial
  have hfresh : Fresh (log Store.empty)
      (usedIDs Store.empty ([recordEvent (lit "e")] ++ [recordEvent (lit "f")])) := by
    have hboth : Fresh (log Store.empty) ([lit "e"] ++ [lit "f"]) := by
      rw [chain_empty.log_eq]
      exact ⟨by decide, fun id _ => List.not_mem_nil⟩
    refine hboth.sublist ?_
    rw [usedIDs_append]
    have hone : ∀ eventID s, (usedIDs s [recordEvent eventID]).Sublist [eventID] := by
      intro eventID s
      rw [usedIDs, usedIDs, List.append_nil]
      exact used_recordEvent eventID s
    exact (hone _ _).append (hone _ _)
  exact ((append_only Store.empty [recordEvent (lit "e")] [recordEvent (lit "f")]).2.1 hvalid
    haudited hfresh).2.2

end Transaction

/-! ## Changes without appends

A change over the bare transaction interface is a program too, and `audit.Append` with it is the
append of `Audit.Chain`. -/

/-- What a transaction sees of a program: nothing of the store where it failed. -/
def Ran.outcome {α : Type} (r : Ran α) : Except Error (α × Store) := r.result.map (·, r.store)

def Program.ofTx : TxProg Unit → Program
  | .ret result => .ret result
  | .get bucket key next => .get bucket key fun r => ofTx (next r)
  | .put bucket key value next => .put bucket key value fun r => ofTx (next r)
  | .delete bucket key next => .delete bucket key fun r => ofTx (next r)
  | .appendAudit key value next => .appendAudit key value fun r => ofTx (next r)
  | .forEach bucket next => .forEach bucket fun entries => ofTx (next entries)

theorem Program.step_outcome {β : Type} {op : Tx β} {s : Store}
    {next : Except Error β → Store → Ran Unit}
    {next' : Except Error β → Store → Except Error (Unit × Store)}
    (h : ∀ r s, (next r s).outcome = next' r s) :
    (step op s next).outcome = TxProg.step op s next' := by
  unfold step TxProg.step
  cases op s <;> exact h _ _

theorem Program.exec_ofTx (change : TxProg Unit) (s : Store) :
    ((ofTx change).exec s).outcome = change.run s := by
  induction change generalizing s with
  | ret result => rfl
  | get bucket key next ih => exact step_outcome fun r s => ih r s
  | put bucket key value next ih => exact step_outcome fun r s => ih r s
  | delete bucket key next ih => exact step_outcome fun r s => ih r s
  | appendAudit key value next ih => exact step_outcome fun r s => ih r s
  | forEach bucket next ih => exact ih _ s

theorem applyRan_ofTx (state : ChainState) (change : Mutation) (s : Store) :
    (applyRan state (some (Program.ofTx change).exec) s).outcome =
      applyChange state (some change) s := by
  have hexec := Program.exec_ofTx change s
  unfold applyRan applyChange
  dsimp only
  cases hresult : ((Program.ofTx change).exec s).result with
  | error e =>
    rw [Ran.outcome, hresult] at hexec
    have hcontext : Tx.context "apply audited state change: " change.run s =
        .error (.wrap "apply audited state change: " e "") := by
      rw [Tx.context, ← hexec]
      rfl
    rw [Tx.bind_of_error hcontext]
    rfl
  | ok u =>
    rw [Ran.outcome, hresult] at hexec
    rw [Tx.bind_of_ok (Tx.context_ok.mpr hexec.symm)]
    dsimp only
    cases hread : readChain ((Program.ofTx change).exec s).store with
    | error e =>
      rw [Tx.bind_of_error hread]
      rfl
    | ok read =>
      obtain ⟨-, -, hsame, -⟩ := readChain_ok.mp hread
      rw [Tx.bind_of_ok hread, Tx.require]
      dsimp only
      split
      · rw [Ran.outcome, hresult, hsame]
        rfl
      · rfl

theorem appendRan_ofTx (event : AuditEvent) (change : Mutation) (s : Store) :
    (appendRan event (some (Program.ofTx change).exec) s).outcome =
      append event (some change) s := by
  rw [append_eq]
  unfold appendRan
  cases hprepare : prepare event s with
  | error e =>
    rw [Tx.bind_of_error hprepare]
    rfl
  | ok prepared =>
    obtain ⟨-, -, hsame, -⟩ := readChain_ok.mp (prepare_ok.mp hprepare).1
    have happly := applyRan_ofTx prepared.1 change s
    rw [Tx.bind_of_ok hprepare, hsame]
    dsimp only
    cases hresult : (applyRan prepared.1 (some (Program.ofTx change).exec) s).result with
    | error e =>
      rw [Ran.outcome, hresult] at happly
      rw [Tx.bind_of_error happly.symm]
      rfl
    | ok u =>
      rw [Ran.outcome, hresult] at happly
      rw [Tx.bind_of_ok happly.symm]
      dsimp only
      cases complete event prepared.1
        (applyRan prepared.1 (some (Program.ofTx change).exec) s).store <;>
        rfl

end PulseAgent.Audit
