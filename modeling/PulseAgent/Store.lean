import Mathlib
import PulseAgent.Go.Errors

/-!
# The local state store

A transaction either fails, and then leaves no trace, or returns a value and a new store. Iteration
is in key order, as in bbolt.
-/

namespace PulseAgent

open Go

inductive Bucket where
  | configurationVersions
  | incidents
  | analysisReferences
  | approvals
  | commandJournal
  | audit
  | stabilizationResults
  | deliveryQueue
  | serviceTargets
  | runbooks
  | ingressReceipts
  | lifecycleEvents
  | incidentReports
deriving DecidableEq

abbrev Collection := Std.ExtTreeMap Bytes Bytes

abbrev Store := Bucket → Collection

def Store.empty : Store := fun _ => ∅

def errInvalidKey : Error := .new "invalid local store key"
def errAuditAppendOnly : Error := .new "audit records are append-only"

abbrev Tx := StateT Store (Except Error)

namespace Tx

variable {α β : Type}

theorem pure_apply (a : α) (s : Store) : (pure a : Tx α) s = .ok (a, s) := rfl

theorem throw_apply (e : Error) (s : Store) : (throw e : Tx α) s = .error e := rfl

theorem bind_ok {x : Tx α} {f : α → Tx β} {s s'' : Store} {b : β} :
    (x >>= f) s = .ok (b, s'') ↔ ∃ a s', x s = .ok (a, s') ∧ f a s' = .ok (b, s'') := by
  change (x s >>= fun p => f p.1 p.2) = _ ↔ _
  cases hx : x s with
  | error e => simp [bind, Except.bind]
  | ok p =>
    obtain ⟨a, s'⟩ := p
    constructor
    · exact fun h => ⟨a, s', rfl, h⟩
    · rintro ⟨a', s'', h, hf⟩
      cases h
      exact hf

theorem bind_of_ok {x : Tx α} {f : α → Tx β} {s s' : Store} {a : α} (h : x s = .ok (a, s')) :
    (x >>= f) s = f a s' := by
  change (x s >>= fun p => f p.1 p.2) = _
  rw [h]
  rfl

theorem bind_of_error {x : Tx α} {f : α → Tx β} {s : Store} {e : Error} (h : x s = .error e) :
    (x >>= f) s = .error e := by
  change (x s >>= fun p => f p.1 p.2) = _
  rw [h]
  rfl

theorem bind_pure_ok {x : Tx Unit} {a b : α} {s s' : Store} :
    (x >>= fun _ => pure a) s = .ok (b, s') ↔ x s = .ok ((), s') ∧ b = a := by
  rw [bind_ok]
  constructor
  · rintro ⟨_, s1, hx, hpure⟩
    cases hpure
    exact ⟨hx, rfl⟩
  · rintro ⟨hx, rfl⟩
    exact ⟨(), s', hx, rfl⟩

/-- A computation that only reads. -/
def liftExcept (x : Except Error α) : Tx α := fun s => x.map (·, s)

theorem liftExcept_ok {x : Except Error α} {s s' : Store} {a : α} :
    liftExcept x s = .ok (a, s') ↔ x = .ok a ∧ s' = s := by
  cases x with
  | error e => simp [liftExcept, Except.map]
  | ok b => simp [liftExcept, Except.map, eq_comm]

/-- Fails with `e` unless the condition holds. -/
def require (ok : Prop) [Decidable ok] (e : Error) : Tx Unit := if ok then pure () else throw e

theorem require_ok {ok : Prop} [Decidable ok] {e : Error} {s s' : Store} {u : Unit} :
    require ok e s = .ok (u, s') ↔ ok ∧ s' = s := by
  unfold require
  split
  case isTrue h => simp [pure_apply, h, eq_comm]
  case isFalse h => simp [throw_apply, h]

/-- Puts a context in front of the error of a step. -/
def context (text : String) (x : Tx α) : Tx α := fun s =>
  match x s with
  | .ok r => .ok r
  | .error e => .error (.wrap text e "")

theorem context_ok {text : String} {x : Tx α} {s : Store} {r : α × Store} :
    context text x s = .ok r ↔ x s = .ok r := by
  unfold context
  cases x s <;> simp

def get (bucket : Bucket) (key : Bytes) : Tx (Option Bytes) := fun s =>
  if key = [] then .error errInvalidKey else .ok ((s bucket)[key]?, s)

def put (bucket : Bucket) (key value : Bytes) : Tx Unit := fun s =>
  if bucket = .audit then .error errAuditAppendOnly
  else if key = [] then .error errInvalidKey
  else .ok ((), Function.update s bucket ((s bucket).insert key value))

def delete (bucket : Bucket) (key : Bytes) : Tx Unit := fun s =>
  if bucket = .audit then .error errAuditAppendOnly
  else if key = [] then .error errInvalidKey
  else .ok ((), Function.update s bucket ((s bucket).erase key))

/-- Stores a previously absent audit record. -/
def appendAudit (key value : Bytes) : Tx Unit := fun s =>
  if key = [] then .error errInvalidKey
  else if (s .audit)[key]?.isSome then .error errAuditAppendOnly
  else .ok ((), Function.update s .audit ((s .audit).insert key value))

/-- Folds the records of one bucket in key order. -/
def forEach (bucket : Bucket) (init : β) (fn : β → Bytes → Bytes → Except Error β) :
    Tx β := fun s =>
  ((s bucket).toList.foldlM (fun acc entry => fn acc entry.1 entry.2) init).map (·, s)

theorem get_ok {bucket : Bucket} {key : Bytes} {s s' : Store} {value : Option Bytes} :
    get bucket key s = .ok (value, s') ↔ key ≠ [] ∧ value = (s bucket)[key]? ∧ s' = s := by
  unfold get
  split <;> simp_all [eq_comm]

theorem put_ok {bucket : Bucket} {key value : Bytes} {s s' : Store} {u : Unit} :
    put bucket key value s = .ok (u, s') ↔
      bucket ≠ .audit ∧ key ≠ [] ∧ s' = Function.update s bucket ((s bucket).insert key value) := by
  unfold put
  split_ifs <;> simp_all [eq_comm]

theorem delete_ok {bucket : Bucket} {key : Bytes} {s s' : Store} {u : Unit} :
    delete bucket key s = .ok (u, s') ↔
      bucket ≠ .audit ∧ key ≠ [] ∧ s' = Function.update s bucket ((s bucket).erase key) := by
  unfold delete
  split_ifs <;> simp_all [eq_comm]

theorem appendAudit_ok {key value : Bytes} {s s' : Store} {u : Unit} :
    appendAudit key value s = .ok (u, s') ↔
      key ≠ [] ∧ (s .audit)[key]? = none ∧
        s' = Function.update s .audit ((s .audit).insert key value) := by
  by_cases hkey : key = []
  · simp [appendAudit, hkey]
  · cases hvalue : (s .audit)[key]? with
    | none =>
      simp only [appendAudit, hkey, hvalue, Option.isSome_none, Bool.false_eq_true, if_false,
        Except.ok.injEq, Prod.mk.injEq, true_and, ne_eq, not_false_eq_true]
      exact eq_comm
    | some v => simp [appendAudit, hkey, hvalue]

theorem forEach_ok {bucket : Bucket} {init acc : β} {fn : β → Bytes → Bytes → Except Error β}
    {s s' : Store} : forEach bucket init fn s = .ok (acc, s') ↔
      (s bucket).toList.foldlM (fun acc entry => fn acc entry.1 entry.2) init =
        .ok acc ∧ s' = s := by
  unfold forEach
  cases (s bucket).toList.foldlM (fun acc entry => fn acc entry.1 entry.2) init with
  | error e => simp [Except.map]
  | ok b => simp [Except.map, eq_comm]

/-! The inversions in front of a continuation, which peel a transaction step by step. -/

section

variable {f : Unit → Tx β} {s : Store} {r : β × Store}

theorem bind_require_ok {ok : Prop} [Decidable ok] {e : Error} :
    (require ok e >>= f) s = .ok r ↔ ok ∧ f () s = .ok r := by
  rw [← Prod.mk.eta (p := r), bind_ok]
  simp only [require_ok]
  constructor
  · rintro ⟨_, s', ⟨hok, rfl⟩, hf⟩
    exact ⟨hok, hf⟩
  · rintro ⟨hok, hf⟩
    exact ⟨(), s, ⟨hok, rfl⟩, hf⟩

theorem bind_liftExcept_ok {x : Except Error α} {g : α → Tx β} :
    (liftExcept x >>= g) s = .ok r ↔ ∃ a, x = .ok a ∧ g a s = .ok r := by
  rw [← Prod.mk.eta (p := r), bind_ok]
  simp only [liftExcept_ok]
  constructor
  · rintro ⟨a, s', ⟨hx, rfl⟩, hg⟩
    exact ⟨a, hx, hg⟩
  · rintro ⟨a, hx, hg⟩
    exact ⟨a, s, ⟨hx, rfl⟩, hg⟩

theorem bind_get_ok {bucket : Bucket} {key : Bytes} {g : Option Bytes → Tx β} :
    (get bucket key >>= g) s = .ok r ↔ key ≠ [] ∧ g (s bucket)[key]? s = .ok r := by
  rw [← Prod.mk.eta (p := r), bind_ok]
  simp only [get_ok]
  constructor
  · rintro ⟨v, s', ⟨hkey, rfl, rfl⟩, hg⟩
    exact ⟨hkey, hg⟩
  · rintro ⟨hkey, hg⟩
    exact ⟨_, s, ⟨hkey, rfl, rfl⟩, hg⟩

theorem bind_put_ok {bucket : Bucket} {key value : Bytes} :
    (put bucket key value >>= f) s = .ok r ↔ bucket ≠ .audit ∧ key ≠ [] ∧
      f () (Function.update s bucket ((s bucket).insert key value)) = .ok r := by
  rw [← Prod.mk.eta (p := r), bind_ok]
  simp only [put_ok]
  constructor
  · rintro ⟨_, s', ⟨hbucket, hkey, rfl⟩, hf⟩
    exact ⟨hbucket, hkey, hf⟩
  · rintro ⟨hbucket, hkey, hf⟩
    exact ⟨(), _, ⟨hbucket, hkey, rfl⟩, hf⟩

theorem bind_forEach_ok {γ : Type} {bucket : Bucket} {init : γ}
    {fn : γ → Bytes → Bytes → Except Error γ} {g : γ → Tx β} :
    (forEach bucket init fn >>= g) s = .ok r ↔ ∃ acc,
      (s bucket).toList.foldlM (fun acc entry => fn acc entry.1 entry.2) init = .ok acc ∧
        g acc s = .ok r := by
  rw [← Prod.mk.eta (p := r), bind_ok]
  simp only [forEach_ok]
  constructor
  · rintro ⟨acc, s', ⟨hfold, rfl⟩, hg⟩
    exact ⟨acc, hfold, hg⟩
  · rintro ⟨acc, hfold, hg⟩
    exact ⟨acc, s, ⟨hfold, rfl⟩, hg⟩

end

/-! ## Transactions that leave a bucket alone -/

def Keeps (bucket : Bucket) (x : Tx α) : Prop := ∀ s a s', x s = .ok (a, s') → s' bucket = s bucket

namespace Keeps

variable {bucket : Bucket} {x : Tx α} {f : α → Tx β}

theorem of_reads (h : ∀ s a s', x s = .ok (a, s') → s' = s) : Keeps bucket x := by
  intro s a s' hx
  rw [h s a s' hx]

theorem pure (a : α) : Keeps bucket (Pure.pure a : Tx α) :=
  of_reads fun _ _ _ h => by
    cases h
    rfl

theorem liftExcept (y : Except Error α) : Keeps bucket (Tx.liftExcept y) :=
  of_reads fun _ _ _ h => (liftExcept_ok.mp h).2

theorem get (other : Bucket) (key : Bytes) : Keeps bucket (Tx.get other key) :=
  of_reads fun _ _ _ h => (get_ok.mp h).2.2

theorem put {other : Bucket} (h : bucket ≠ other) (key value : Bytes) :
    Keeps bucket (Tx.put other key value) := by
  intro s u s' hput
  obtain ⟨-, -, rfl⟩ := put_ok.mp hput
  exact Function.update_of_ne h _ _

theorem appendAudit (h : bucket ≠ .audit) (key value : Bytes) :
    Keeps bucket (Tx.appendAudit key value) := by
  intro s u s' happend
  obtain ⟨-, -, rfl⟩ := appendAudit_ok.mp happend
  exact Function.update_of_ne h _ _

theorem bind (hx : Keeps bucket x) (hf : ∀ a, Keeps bucket (f a)) : Keeps bucket (x >>= f) := by
  intro s b s'' h
  obtain ⟨a, s', h, h'⟩ := bind_ok.mp h
  exact (hf a s' b s'' h').trans (hx s a s' h)

end Keeps

/-! ## How transactions fail -/

/-- Every error of the transaction has the property. -/
def Fails (P : Error → Prop) (x : Tx α) : Prop := ∀ s e, x s = .error e → P e

namespace Fails

variable {P : Error → Prop} {x : Tx α} {f : α → Tx β}

theorem pure (a : α) : Fails P (Pure.pure a : Tx α) := by
  intro s e h
  cases h

theorem throw {e : Error} (h : P e) : Fails P (MonadExcept.throw e : Tx α) := by
  intro s e' heq
  cases heq
  exact h

theorem liftExcept {y : Except Error α} (h : ∀ e, y = .error e → P e) :
    Fails P (Tx.liftExcept y) := by
  intro s e heq
  cases y with
  | error e' =>
    cases heq
    exact h e rfl
  | ok a => cases heq

theorem require {ok : Prop} [Decidable ok] {e : Error} (h : P e) : Fails P (Tx.require ok e) := by
  intro s e' heq
  unfold Tx.require at heq
  split at heq
  case isTrue => cases heq
  case isFalse =>
    cases heq
    exact h

theorem get (h : P errInvalidKey) (bucket : Bucket) (key : Bytes) :
    Fails P (Tx.get bucket key) := by
  intro s e heq
  unfold Tx.get at heq
  split at heq
  case isTrue =>
    cases heq
    exact h
  case isFalse => cases heq

theorem put (hkey : P errInvalidKey) (haudit : P errAuditAppendOnly) (bucket : Bucket)
    (key value : Bytes) : Fails P (Tx.put bucket key value) := by
  intro s e heq
  unfold Tx.put at heq
  split at heq
  case isTrue =>
    cases heq
    exact haudit
  case isFalse =>
    split at heq
    case isTrue =>
      cases heq
      exact hkey
    case isFalse => cases heq

theorem appendAudit (hkey : P errInvalidKey) (haudit : P errAuditAppendOnly) (key value : Bytes) :
    Fails P (Tx.appendAudit key value) := by
  intro s e heq
  unfold Tx.appendAudit at heq
  split at heq
  case isTrue =>
    cases heq
    exact hkey
  case isFalse =>
    split at heq
    case isTrue =>
      cases heq
      exact haudit
    case isFalse => cases heq

theorem bind (hx : Fails P x) (hf : ∀ a, Fails P (f a)) : Fails P (x >>= f) := by
  intro s e h
  cases hstep : x s with
  | error e' =>
    rw [bind_of_error hstep] at h
    cases h
    exact hx s e hstep
  | ok r =>
    rw [bind_of_ok hstep] at h
    exact hf r.1 r.2 e h

theorem context {text : String} (hx : Fails P x) (hwrap : ∀ e, P e → P (.wrap text e "")) :
    Fails P (Tx.context text x) := by
  intro s e h
  unfold Tx.context at h
  split at h
  case h_1 => cases h
  case h_2 e' hstep =>
    cases h
    exact hwrap e' (hx s e' hstep)

theorem forEach {bucket : Bucket} {init : β} {fn : β → Bytes → Bytes → Except Error β}
    (h : ∀ acc key value e, fn acc key value = .error e → P e) :
    Fails P (Tx.forEach bucket init fn) := by
  intro s e heq
  unfold Tx.forEach at heq
  generalize (s bucket).toList = entries at heq
  induction entries generalizing init with
  | nil => cases heq
  | cons entry entries ih =>
    rw [List.foldlM_cons] at heq
    cases hstep : fn init entry.1 entry.2 with
    | error e' =>
      rw [hstep] at heq
      cases heq
      exact h _ _ _ _ hstep
    | ok acc =>
      rw [hstep] at heq
      exact ih heq

end Fails

end Tx

namespace Store

variable {α : Type}

/-- `Store.Update`: an error rolls back every write. -/
def update (fn : Tx α) (s : Store) : Except Error α × Store :=
  match fn s with
  | .ok (a, s') => (.ok a, s')
  | .error e => (.error e, s)

/-- `Store.View`. -/
def view (fn : Tx α) (s : Store) : Except Error α := (fn s).map Prod.fst

theorem update_of_ok {fn : Tx α} {s s' : Store} {a : α} (h : fn s = .ok (a, s')) :
    update fn s = (.ok a, s') := by
  simp only [update, h]

theorem update_of_error {fn : Tx α} {s : Store} {e : Error} (h : fn s = .error e) :
    update fn s = (.error e, s) := by
  simp only [update, h]

theorem update_eq_ok {fn : Tx α} {s s' : Store} {a : α} :
    update fn s = (.ok a, s') ↔ fn s = .ok (a, s') := by
  unfold update
  cases fn s with
  | error e => simp
  | ok p => simp [Prod.ext_iff]

end Store

/-- Every audit record of the first store is in the second. -/
def AuditKept (s s' : Store) : Prop :=
  ∀ k v : Bytes, (s .audit)[k]? = some v → (s' .audit)[k]? = some v

namespace AuditKept

theorem refl (s : Store) : AuditKept s s := fun _ _ h => h

theorem trans {s s' s'' : Store} (h : AuditKept s s') (h' : AuditKept s' s'') : AuditKept s s'' :=
  fun k v hk => h' k v (h k v hk)

theorem of_ne {s : Store} {bucket : Bucket} {c : Collection} (h : bucket ≠ .audit) :
    AuditKept s (Function.update s bucket c) := by
  intro k v hk
  rw [Function.update_of_ne (Ne.symm h)]
  exact hk

theorem insert {s : Store} {key value : Bytes} (h : (s .audit)[key]? = none) :
    AuditKept s (Function.update s .audit ((s .audit).insert key value)) := by
  intro k v hk
  rw [Function.update_self, Std.ExtTreeMap.getElem?_insert]
  split
  case isTrue heq =>
    rw [Std.LawfulEqCmp.eq_of_compare heq, hk] at h
    cases h
  case isFalse => exact hk

end AuditKept

/-- A transaction callback: any program over the transaction interface, which may go on after
an operation failed. -/
inductive TxProg (α : Type) where
  | ret (result : Except Error α)
  | get (bucket : Bucket) (key : Bytes) (next : Except Error (Option Bytes) → TxProg α)
  | put (bucket : Bucket) (key value : Bytes) (next : Except Error Unit → TxProg α)
  | delete (bucket : Bucket) (key : Bytes) (next : Except Error Unit → TxProg α)
  | appendAudit (key value : Bytes) (next : Except Error Unit → TxProg α)
  | forEach (bucket : Bucket) (next : List (Bytes × Bytes) → TxProg α)

namespace TxProg

variable {α β : Type}

/-- Runs one operation; a failed one leaves the store as it was. -/
def step (op : Tx β) (s : Store) (next : Except Error β → Store → Except Error (α × Store)) :
    Except Error (α × Store) :=
  match op s with
  | .ok (b, s') => next (.ok b) s'
  | .error e => next (.error e) s

def run : TxProg α → Tx α
  | .ret result => fun s => result.map (·, s)
  | .get bucket key next => fun s => step (Tx.get bucket key) s fun r s => (next r).run s
  | .put bucket key value next => fun s =>
    step (Tx.put bucket key value) s fun r s => (next r).run s
  | .delete bucket key next => fun s => step (Tx.delete bucket key) s fun r s => (next r).run s
  | .appendAudit key value next => fun s =>
    step (Tx.appendAudit key value) s fun r s => (next r).run s
  | .forEach bucket next => fun s => (next (s bucket).toList).run s

theorem auditKept_of_step {op : Tx β} {s s'' : Store} {a : α}
    {next : Except Error β → Store → Except Error (α × Store)}
    (hop : ∀ b s', op s = .ok (b, s') → AuditKept s s')
    (hnext : ∀ r s', next r s' = .ok (a, s'') → AuditKept s' s'')
    (h : step op s next = .ok (a, s'')) : AuditKept s s'' := by
  unfold step at h
  cases hx : op s with
  | error e =>
    rw [hx] at h
    exact hnext _ _ h
  | ok p =>
    rw [hx] at h
    exact (hop p.1 p.2 hx).trans (hnext _ _ h)

theorem auditKept_run (p : TxProg α) {s s' : Store} {a : α} (h : p.run s = .ok (a, s')) :
    AuditKept s s' := by
  induction p generalizing s with
  | ret result =>
    cases result with
    | error e => cases h
    | ok b =>
      cases h
      exact AuditKept.refl _
  | get bucket key next ih =>
    refine auditKept_of_step (fun b s1 hop => ?_) (fun r s1 h1 => ih r h1) h
    obtain ⟨-, -, rfl⟩ := Tx.get_ok.mp hop
    exact AuditKept.refl _
  | put bucket key value next ih =>
    refine auditKept_of_step (fun b s1 hop => ?_) (fun r s1 h1 => ih r h1) h
    obtain ⟨hbucket, -, rfl⟩ := Tx.put_ok.mp hop
    exact AuditKept.of_ne hbucket
  | delete bucket key next ih =>
    refine auditKept_of_step (fun b s1 hop => ?_) (fun r s1 h1 => ih r h1) h
    obtain ⟨hbucket, -, rfl⟩ := Tx.delete_ok.mp hop
    exact AuditKept.of_ne hbucket
  | appendAudit key value next ih =>
    refine auditKept_of_step (fun b s1 hop => ?_) (fun r s1 h1 => ih r h1) h
    obtain ⟨-, habsent, rfl⟩ := Tx.appendAudit_ok.mp hop
    exact AuditKept.insert habsent
  | forEach bucket next ih => exact ih _ h

/-- The callback never writes to the bucket. -/
def Avoids (avoided : Bucket) : TxProg α → Prop
  | .ret _ => True
  | .get _ _ next => ∀ r, (next r).Avoids avoided
  | .put bucket _ _ next => bucket ≠ avoided ∧ ∀ r, (next r).Avoids avoided
  | .delete bucket _ next => bucket ≠ avoided ∧ ∀ r, (next r).Avoids avoided
  | .appendAudit _ _ next => avoided ≠ .audit ∧ ∀ r, (next r).Avoids avoided
  | .forEach _ next => ∀ entries, (next entries).Avoids avoided

theorem keeps_of_step {bucket : Bucket} {op : Tx β} {s s'' : Store} {a : α}
    {next : Except Error β → Store → Except Error (α × Store)} (hop : Tx.Keeps bucket op)
    (hnext : ∀ r s', next r s' = .ok (a, s'') → s'' bucket = s' bucket)
    (h : step op s next = .ok (a, s'')) : s'' bucket = s bucket := by
  unfold step at h
  cases hx : op s with
  | error e =>
    rw [hx] at h
    exact hnext _ _ h
  | ok p =>
    rw [hx] at h
    exact (hnext _ _ h).trans (hop s p.1 p.2 hx)

theorem Avoids.keeps {bucket : Bucket} {p : TxProg α} (hp : p.Avoids bucket) :
    Tx.Keeps bucket p.run := by
  intro s a s' h
  induction p generalizing s with
  | ret result =>
    cases result with
    | error e => cases h
    | ok b =>
      cases h
      rfl
  | get other key next ih =>
    exact keeps_of_step (Tx.Keeps.get other key) (fun r s1 h1 => ih r (hp r) s1 h1) h
  | put other key value next ih =>
    exact keeps_of_step (Tx.Keeps.put (Ne.symm hp.1) key value)
      (fun r s1 h1 => ih r (hp.2 r) s1 h1) h
  | delete other key next ih =>
    refine keeps_of_step (fun s a s' hdelete => ?_) (fun r s1 h1 => ih r (hp.2 r) s1 h1) h
    obtain ⟨-, -, rfl⟩ := Tx.delete_ok.mp hdelete
    exact Function.update_of_ne (Ne.symm hp.1) _ _
  | appendAudit key value next ih =>
    exact keeps_of_step (Tx.Keeps.appendAudit hp.1 key value)
      (fun r s1 h1 => ih r (hp.2 r) s1 h1) h
  | forEach other next ih => exact ih _ (hp _) s h

end TxProg
end PulseAgent
