import PulseAgent.Alert.Receipts
import PulseAgent.Webhook.Verify

/-!
# Replayed alerts

The retention of a receipt and the tolerance of a signature are configured apart: a retention that
ends before the signature does lets the same alert in again.
-/

namespace PulseAgent.Alert

open Go Go.Json Contract Concurrent

/-! ## A call that succeeds -/

/-- Everything an alert needs to be accepted, apart from the receipts. -/
structure Serves (c : Call) (env : Environment) (value : Incoming)
    (id document : Bytes) : Prop where
  waits : env.cancelled = none
  commits : env.fault = none
  named : env.id = .ok id
  body : ¬(c.raw = [] ∨ c.ingress.maxBody.toInt < c.raw.length)
  nonzero : env.now.isZero = false
  verified : c.ingress.keyring.verify c.headers c.raw env.now = .ok ()
  decodes : decode c.raw = .ok value
  registered : registered env.snapshot value = true
  receipt : Receipt.codec.marshal ⟨env.now.add c.ingress.retention⟩ = some document

/-- The calls of an alert that is accepted, the earliest first. -/
def acceptedTrace (env : Environment) (id document : Bytes) (s : Store) : History :=
  [⟨Op.ctxErr, env, s⟩, ⟨Op.clock, env, s⟩, ⟨Op.ctxErr, env, s⟩,
    ⟨Op.tx (.hasActiveReceipt id env.now), env, s⟩, ⟨Op.snapshot, env, s⟩, ⟨Op.newID, env, s⟩,
    ⟨Op.tx (.storeReceipt id env.now document), env, s⟩]

theorem exec_call {α : Type} {o : Op} {f : o.Res → Prog α} {env : Environment} {s s' s'' : Store}
    {r : o.Res} (h : perform o env s = (r, s')) {a : α} {trace : History}
    (hrest : (f r).exec (fun _ _ => env) s' = ⟨a, s'', trace⟩) :
    (call o >>= f).exec (fun _ _ => env) s = ⟨a, s'', ⟨o, env, s⟩ :: trace⟩ :=
  @Prog.exec_call_of Store interface α o f (fun _ _ => env) s s' s'' r h a trace hrest

namespace Serves

variable {c : Call} {env : Environment} {value : Incoming} {id document : Bytes}
  (h : Serves c env value id document) {s s' : Store}
include h

theorem perform_tx {t : Transaction} {a : t.Out} (hbody : t.body s = .ok (a, s')) :
    perform (.tx t) env s = (.ok a, s') := by
  change t.run env.fault s = _
  rw [h.commits]
  exact Transaction.run_of_ok hbody

theorem perform_ctxErr : perform .ctxErr env s = (none, s) := congrArg (·, s) h.waits

theorem normalize_exec : (normalize value env.now).exec (fun _ _ => env) s =
    ⟨.ok (normalized value env.snapshot id env.now), s,
      [⟨Op.snapshot, env, s⟩, ⟨Op.newID, env, s⟩]⟩ := by
  refine exec_call (o := .snapshot) rfl ?_
  rw [h.registered]
  exact exec_call (o := .newID) (congrArg (·, s) h.named) rfl

variable (hview : hasActiveReceipt c.headers.id env.now s = .ok (false, s))
  (hstore : storeReceipt c.headers.id env.now document s = .ok ((), s'))
include hstore

theorem acceptNormalized_exec (n : Normalized) :
    (c.ingress.acceptNormalized c.headers.id env.now n).exec (fun _ _ => env) s =
    ⟨.ok n, s', [⟨Op.tx (.storeReceipt c.headers.id env.now document), env, s⟩]⟩ := by
  unfold Ingress.acceptNormalized
  rw [h.receipt]
  exact exec_call (h.perform_tx (t := .storeReceipt c.headers.id env.now document) hstore) rfl

include hview

theorem acceptVerified_exec :
    (c.ingress.acceptVerified c.headers.id c.raw env.now).exec (fun _ _ => env) s =
      ⟨.ok (normalized value env.snapshot id env.now), s',
        (acceptedTrace env c.headers.id document s).drop 2⟩ := by
  refine exec_call (o := .ctxErr) h.perform_ctxErr
    (exec_call (h.perform_tx (t := .hasActiveReceipt c.headers.id env.now) hview) ?_)
  rw [h.decodes]
  exact Prog.exec_bind_eq (I := interface) h.normalize_exec (h.acceptNormalized_exec hstore _)

theorem accept_exec : (c.ingress.accept c.headers c.raw).exec (fun _ _ => env) s =
    ⟨.ok (normalized value env.snapshot id env.now), s',
      acceptedTrace env c.headers.id document s⟩ := by
  unfold Ingress.accept
  rw [if_neg h.body]
  refine exec_call (o := .ctxErr) h.perform_ctxErr (exec_call (o := .clock) rfl ?_)
  rw [h.nonzero, h.verified]
  exact h.acceptVerified_exec hview hstore

end Serves

theorem reading_of_mem {env : Environment} {id document : Bytes} {s : Store}
    {x : Occurrence interface}
    (hx : x ∈ acceptedTrace env id document s) {id' document' : Bytes} {now : Time}
    (h : Stores x id' now document') : now = env.now := by
  have hop := h.op
  simp only [acceptedTrace, List.mem_cons, List.not_mem_nil, or_false] at hx
  rcases hx with rfl | rfl | rfl | rfl | rfl | rfl | rfl
  all_goals cases hop
  rfl

/-! ## Two calls -/

theorem receptive_empty (id : Bytes) (now : Time) : Receptive id now fun _ => ∅ where
  readable key old hold := by simp at hold
  expired := by simp

/-- No receipt was stored after this reading. -/
def Before (now : Time) (log : List (Event interface)) : Prop :=
  ∀ e ∈ log, ∀ id reading document, Stores e.toOccurrence id reading document → reading ≤ now

theorem Serves.goes_on {c : Call} {env : Environment} {value : Incoming} {id document : Bytes}
    (h : Serves c env value id document) (hid : c.headers.id ≠ []) {s : Store}
    {actions : List (Action system)} (hordered : Ordered (run s actions).log)
    (hbefore : Before env.now (run s actions).log)
    (hfree : Receptive c.headers.id env.now (run s actions).state) :
    ∃ more : List (Action system), (∀ c', Action.spawn c' ∈ more → c' = c) ∧
      storeReceipt c.headers.id env.now document (run s actions).state =
        .ok ((), (run s (actions ++ more)).state) ∧
      (run s (actions ++ more)).threads = (run s actions).threads ++
        [(c, some (.pure (.ok (normalized value env.snapshot id env.now))))] ∧
      Ordered (run s (actions ++ more)).log ∧ Before env.now (run s (actions ++ more)).log := by
  obtain ⟨s', hstore⟩ := hfree.store hid document
  have hexec : (system.program c).exec (fun _ _ => env) (run s actions).state =
      ⟨.ok (normalized value env.snapshot id env.now), s',
        acceptedTrace env c.headers.id document (run s actions).state⟩ :=
    h.accept_exec (hfree.view hid) hstore
  obtain ⟨steps, hsteps, hrun⟩ := run_of_call _ hexec
  rw [List.append_assoc, List.singleton_append] at hrun
  change run s (actions ++ Action.spawn c :: steps) = _ at hrun
  refine ⟨.spawn c :: steps, fun c' hc' => ?_, ?_, ?_, ?_⟩
  · rcases List.mem_cons.mp hc' with heq | hc'
    · exact Action.spawn.inj heq
    · exact absurd hc' (hsteps c')
  · rw [hstore, hrun]
  · rw [hrun]
  · rw [hrun]
    have hnew : ∀ e ∈ (acceptedTrace env c.headers.id document (run s actions).state).reverse.map
        fun x => (⟨x, (run s actions).threads.length⟩ : Event interface),
        ∀ id reading document, Stores e.toOccurrence id reading document → reading = env.now := by
      intro e he id reading document hstores
      obtain ⟨x, hx, rfl⟩ := List.mem_map.mp he
      exact reading_of_mem (List.mem_reverse.mp hx) hstores
    refine ⟨List.pairwise_append.mpr ⟨?_, hordered, ?_⟩, ?_⟩
    · refine List.pairwise_of_forall_mem_list
        fun e he e' he' id now document id' now' document' h h' => ?_
      rw [hnew e he id now document h, hnew e' he' id' now' document' h']
    · intro e he e' he' id now document id' now' document' h h'
      rw [hnew e he id now document h]
      exact hbefore e' he' id' now' document' h'
    · intro e he id' reading document' hstores
      rcases List.mem_append.mp he with hmem | hmem
      · exact Int.le_of_eq (hnew e hmem id' reading document' hstores)
      · exact hbefore e hmem id' reading document' hstores

theorem accepted_twice {c : Call} {env env' : Environment} {value value' : Incoming}
    {id id' document document' : Bytes} (h : Serves c env value id document)
    (h' : Serves c env' value' id' document') (hid : c.headers.id ≠ [])
    (hlater : env.now.add c.ingress.retention ≤ env'.now)
    (hnonzero : (env.now.add c.ingress.retention).isZero = false) :
    ∃ actions : List (Action system), (∀ c', Action.spawn c' ∈ actions → c' = c) ∧
      Ordered (run (fun _ => ∅) actions).log ∧
      Returned (run (fun _ => ∅) actions) 0 c (.ok (normalized value env.snapshot id env.now)) ∧
      Returned (run (fun _ => ∅) actions) 1
        c (.ok (normalized value' env'.snapshot id' env'.now)) := by
  have hempty : Receptive c.headers.id env.now (run (fun _ => ∅) []).state :=
    receptive_empty c.headers.id env.now
  have hnone : Ordered (run (fun _ => ∅) []).log := List.Pairwise.nil
  obtain ⟨first, hfirst, hstore, hthreads, hordered, hbefore⟩ := h.goes_on hid hnone
    (fun e he => by cases he) hempty
  have hread : readReceipt document = .ok (env.now.add c.ingress.retention) := by
    rw [readReceipt_marshal h.receipt, hnonzero]
    rfl
  have hfree := (storeReceipt_ok hstore).receptive hid hempty hread hlater
  have hle : env.now ≤ env'.now := by
    have hretention := Int64.le_iff_toInt_le.mp c.ingress.retentions
    have hminute : (60 * 1000000000 : Duration).toInt = 60000000000 := rfl
    exact Int.le_trans (Int.le_add_of_nonneg_right (by omega)) hlater
  obtain ⟨second, hsecond, -, hthreads', hordered', -⟩ := h'.goes_on hid hordered
    (fun e he id reading document hstores =>
      Int.le_trans (hbefore e he id reading document hstores) hle)
    hfree
  rw [hthreads] at hthreads'
  refine ⟨[] ++ first ++ second, fun c' hc' => ?_, hordered', ?_, ?_⟩
  · exact (List.mem_append.mp hc').elim (hfirst c') (hsecond c')
  · exact (congrArg (·[0]?) hthreads').trans rfl
  · exact (congrArg (·[1]?) hthreads').trans rfl

/-! ## Signed alerts -/

/-- An environment that serves an alert at this reading. -/
def serving (now : Time) (value : Incoming) : Environment where
  cancelled := none
  now := now
  id := .ok (lit "obs_1")
  snapshot := { targets := [{ targetID := value.targetID, enabled := true,
                              probeRules := some [{ ruleID := value.ruleID }] }] }
  fault := none

/-- The alert, signed by the keyring of the ingress itself. -/
def signedCall (i : Ingress) (timestamp : Time) (raw : Bytes) : Call where
  ingress := i
  headers := i.keyring.signed (lit "msg_1") timestamp raw
  raw := raw

theorem exists_receipt {t : Time} (h : 0 ≤ t) (hlt : t < 300000000000000000000) :
    ∃ document, Receipt.codec.marshal ⟨t⟩ = some document := by
  have hformat : ∃ text, t.format = some text := by
    have hzero : Time.yearZero = 31622400000000000 := rfl
    have hyears : Time.tenThousandYears = 315569520000000000000 := rfl
    have hrange : 0 ≤ t + Time.yearZero ∧ t + Time.yearZero < Time.tenThousandYears := by
      rw [hzero, hyears]
      exact ⟨Int.add_nonneg h (by decide), lt_trans (Int.add_lt_add_right hlt _) (by decide)⟩
    exact ⟨_, if_pos hrange⟩
  obtain ⟨text, htext⟩ := hformat
  exact Codec.marshal_of_writes (Codec.writes_struct fun f hf => by
    obtain rfl := List.mem_singleton.mp hf
    exact Member.writes_of (Codec.writes_time htext))

theorem le_of_unix_nonneg {t : Int} (h : 0 ≤ Time.unix t) : 62135596800000000000 ≤ t := by
  unfold Time.unix at h
  omega

theorem Ingress.minute_le (i : Ingress) : 60000000000 ≤ i.retention.toInt :=
  Int64.le_iff_toInt_le.mp i.retentions

theorem add_retention_pos {i : Ingress} {now : Time} (hnow : 0 ≤ now.unix) :
    0 < now.add i.retention :=
  Int.add_pos_of_nonneg_of_pos (Int.le_trans (by decide) (le_of_unix_nonneg hnow))
    (Int.lt_of_lt_of_le (by decide) i.minute_le)

theorem unix_lt_of_year {i : Ingress} {now : Int}
    (hyear : Time.add now i.retention < 300000000000000000000) : Time.unix now < 2 ^ 63 := by
  have hminute := i.minute_le
  change now + i.retention.toInt < 300000000000000000000 at hyear
  unfold Time.unix
  omega

theorem isZero_of_pos {t : Time} (h : 0 < t) : t.isZero = false :=
  beq_eq_false_iff_ne.mpr (Int.ne_of_gt h)

theorem serves_signed {i : Ingress} {timestamp now : Time} {raw : Bytes} {value : Incoming}
    (hfits : raw.length ≤ i.maxBody.toInt) (hdecode : decode raw = .ok value)
    (htimestamp : 0 ≤ timestamp.unix ∧ timestamp.unix < 2 ^ 63) (hnow : 0 ≤ now.unix)
    (hclose : |timestamp.unix - now.unix| ≤ 300)
    (hyear : now.add i.retention < 300000000000000000000) :
    ∃ document, Serves (signedCall i timestamp raw)
      (serving now value) value (lit "obs_1") document := by
  obtain ⟨document, hdocument⟩ := exists_receipt (add_retention_pos hnow).le hyear
  refine ⟨document, rfl, rfl, rfl, ?_, ?_, ?_, hdecode, ?_, hdocument⟩
  · rintro (rfl | hlong)
    · have hempty : (decode []).toOption.isNone = true := by decide +kernel
      rw [hdecode] at hempty
      cases hempty
    · exact absurd hfits (not_le.mpr hlong)
  · exact isZero_of_pos (Int.lt_of_lt_of_le (by decide) (le_of_unix_nonneg hnow))
  · exact i.keyring.verify_signed_self (by decide +kernel) raw htimestamp
      ⟨hnow, unix_lt_of_year hyear⟩ hclose
  · simp [registered, serving, elems]

theorem accepted_at (i : Ingress) (timestamp now now' : Time) {raw : Bytes} {value : Incoming}
    (hfits : raw.length ≤ i.maxBody.toInt) (hdecode : decode raw = .ok value)
    (htimestamp : 0 ≤ timestamp.unix ∧ timestamp.unix < 2 ^ 63) (hnow : 0 ≤ now.unix)
    (hclose : |timestamp.unix - now.unix| ≤ 300) (hnow' : 0 ≤ now'.unix)
    (hclose' : |timestamp.unix - now'.unix| ≤ 300)
    (hlater : now.add i.retention ≤ now') (hyear : now'.add i.retention < 300000000000000000000) :
    ∃ actions : List (Action system),
      (∀ c, Action.spawn c ∈ actions → c = signedCall i timestamp raw) ∧
      Ordered (run (fun _ => ∅) actions).log ∧ ∃ n n',
        Returned (run (fun _ => ∅) actions) 0 (signedCall i timestamp raw) (.ok n) ∧
        Returned (run (fun _ => ∅) actions) 1 (signedCall i timestamp raw) (.ok n') := by
  have hyear' : now.add i.retention < 300000000000000000000 :=
    Int.lt_of_le_of_lt (Int.le_trans hlater (Int.le_add_of_nonneg_right
      (Int.le_trans (by decide) i.minute_le))) hyear
  obtain ⟨document, h⟩ := serves_signed hfits hdecode htimestamp hnow hclose hyear'
  obtain ⟨document', h'⟩ := serves_signed hfits hdecode htimestamp hnow' hclose' hyear
  obtain ⟨actions, hspawn, hordered, hfirst, hsecond⟩ := accepted_twice h h'
    (show lit "msg_1" ≠ [] by decide +kernel) hlater (isZero_of_pos (add_retention_pos hnow))
  exact ⟨actions, hspawn, hordered, _, _, hfirst, hsecond⟩

def exampleKeyring : Webhook.Keyring := ⟨Webhook.exampleSecret 0, none⟩

def exampleIngress : Ingress where
  keyring := exampleKeyring
  maxBody := defaultMaxBodyBytes
  timeout := defaultTimeout
  retention := 60 * 1000000000
  body := by decide
  timeouts := by decide
  retentions := by decide

def exampleAlert : Incoming where
  schemaVersion := schemaVersionV1
  source := lit "monitor"
  externalAlertID := lit "alert_1"
  targetID := lit "api"
  ruleID := lit "latency"
  state := .unhealthy
  severity := .warning
  observedAt := 63135596800000000000

def exampleBody : Bytes := (Incoming.codec.marshal exampleAlert).getD []

theorem decode_exampleBody : ∃ value, decode exampleBody = .ok value := by
  have h : (decode exampleBody).toOption.isSome = true := by decide +kernel
  cases hdecode : decode exampleBody with
  | error e =>
    rw [hdecode] at h
    cases h
  | ok value => exact ⟨value, rfl⟩

/-! ## Retention -/

/-- What the receipts of a run enforce. -/
structure Retained (w : World system) : Prop where
  spaced : ∀ t t' c c' n n' now now', t ≠ t' → Returned w t c (.ok n) → Returned w t' c' (.ok n') →
    c.headers.id = c'.headers.id → readings (history t w.log) = [now] →
    readings (history t' w.log) = [now'] →
    now.add c.ingress.retention ≤ now' ∨ now'.add c'.ingress.retention ≤ now
  accepted : ∀ t c n, Returned w t c (.ok n) → ∃ now document last earlier,
    history t w.log = last :: earlier ∧ readings (history t w.log) = [now] ∧
    Receipt.codec.marshal ⟨now.add c.ingress.retention⟩ = some document ∧
    Sweeps c.headers.id now document last.before last.after ∧ ∀ x ∈ earlier, Untouched x
  refused : ∀ t c e, Returned w t c (.error e) → ∀ x ∈ history t w.log, Untouched x

/-- The receipts enforce the retention, whatever the calls interleave like. -/
theorem receipts_enforce_retention (s : Store) (actions : List (Action system))
    (hordered : Ordered (run s actions).log) : Retained (run s actions) where
  spaced t t' c c' n n' now now' hne h h' hid hnow hnow' := by
    obtain ⟨now1, _, _, _, haccepted⟩ := (outcome_of_returned h).2 n rfl
    obtain ⟨now2, _, _, _, haccepted'⟩ := (outcome_of_returned h').2 n' rfl
    obtain rfl : now = now1 := (List.cons.inj (hnow.symm.trans haccepted.reading)).1
    obtain rfl : now' = now2 := (List.cons.inj (hnow'.symm.trans haccepted'.reading)).1
    exact spaced_of_accepted hordered hne haccepted haccepted' hid
  accepted t c n h := by
    obtain ⟨now, document, last, earlier, haccepted⟩ := (outcome_of_returned h).2 n rfl
    exact ⟨now, document, last, earlier, haccepted.history, haccepted.reading, haccepted.receipt,
      haccepted.stores.sweeps, haccepted.earlier⟩
  refused t c e h := (outcome_of_returned h).1 e rfl

/-- Two acceptances of one webhook ID, a minute apart. -/
theorem accepted_after_a_minute : ∃ actions : List (Action system),
    (∃ c n n', Returned (run (fun _ => ∅) actions) 0 c (.ok n) ∧
      Returned (run (fun _ => ∅) actions) 1 c (.ok n')) ∧ Retained (run (fun _ => ∅) actions) := by
  obtain ⟨value, hdecode⟩ := decode_exampleBody
  obtain ⟨actions, -, hordered, n, n', h, h'⟩ := accepted_at exampleIngress
    63135596800000000000 63135596800000000000 63135596860000000000 (by decide +kernel)
      hdecode (by decide) (by decide) (by decide)
    (by decide) (by decide) (by decide) (by decide)
  exact ⟨actions, ⟨_, n, n', h, h'⟩, receipts_enforce_retention _ actions hordered⟩

/-! ## Replay -/

/-- The same webhook is accepted at most once, with readings in the order of the commits. -/
def AcceptedOnce (i : Ingress) : Prop :=
  ∀ (s : Store) (actions : List (Action system)), (∀ c, Action.spawn c ∈ actions → c.ingress = i) →
    Ordered (run s actions).log → ∀ t t' headers raw n n',
      Returned (run s actions) t ⟨i, headers, raw⟩ (.ok n) →
      Returned (run s actions) t' ⟨i, headers, raw⟩ (.ok n') → t = t'

theorem format_of_receipt {t : Time} {document : Bytes}
    (h : Receipt.codec.marshal ⟨t⟩ = some document) : ∃ text, t.format = some text := by
  cases hformat : t.format with
  | some text => exact ⟨text, rfl⟩
  | none =>
    have hnone : Receipt.codec.marshal ⟨t⟩ = none := by
      simp [Codec.marshal, Receipt.codec, Codec.struct, Receipt.fields,
        Member.encodeMembers, Member.of,
        Codec.time, hformat]
    rw [hnone] at h
    cases h

theorem unix64_of_receipt {i : Ingress} {now : Int} {document : Bytes}
    (h : Receipt.codec.marshal ⟨Time.add now i.retention⟩ = some document) :
    (Webhook.unix64 now).toInt = Time.unix now := by
  obtain ⟨text, htext⟩ := format_of_receipt h
  unfold Time.format at htext
  split at htext
  case isTrue hrange =>
    obtain ⟨hlow, hhigh⟩ := hrange
    have hzero : Time.yearZero = 31622400000000000 := rfl
    have hyears : Time.tenThousandYears = 315569520000000000000 := rfl
    change 0 ≤ now + i.retention.toInt + Time.yearZero at hlow
    change now + i.retention.toInt + Time.yearZero < Time.tenThousandYears at hhigh
    have hminute := i.minute_le
    have hmax := i.retention.toInt_lt
    apply Int64.toInt_ofInt_of_le
    · unfold Time.unix
      omega
    · unfold Time.unix
      omega
  case isFalse => cases htext

theorem lt_of_close {now now' timestamp : Int} (h : |timestamp - Time.unix now| ≤ 300)
    (h' : |timestamp - Time.unix now'| ≤ 300) : now' < now + 601000000000 := by
  rw [abs_le] at h h'
  unfold Time.unix at h h'
  omega

theorem Accepted.lt_of_same {c c' : Call} {h h' earlier earlier' : History} {now now' : Time}
    {document document' : Bytes} {last last' : Occurrence interface}
    (haccepted : Accepted c h now document last earlier)
    (haccepted' : Accepted c' h' now' document' last' earlier')
    (hheaders : c'.headers = c.headers) : (now' : Int) < now + 601000000000 := by
  obtain ⟨timestamp, htimestamp, hclose⟩ := Webhook.Keyring.close_of_verify haccepted.verified
  obtain ⟨timestamp', htimestamp', hclose'⟩ :=
    Webhook.Keyring.close_of_verify haccepted'.verified
  rw [hheaders, htimestamp] at htimestamp'
  obtain rfl := Except.ok.inj htimestamp'
  rw [unix64_of_receipt haccepted.receipt] at hclose
  rw [unix64_of_receipt haccepted'.receipt] at hclose'
  exact lt_of_close hclose hclose'

theorem acceptedOnce_of_retention {i : Ingress} (h : 601 * 1000000000 ≤ i.retention) :
    AcceptedOnce i := by
  intro s actions _ hordered t t' headers raw n n' hreturned hreturned'
  obtain ⟨now, _, _, _, haccepted⟩ := (outcome_of_returned hreturned).2 n rfl
  obtain ⟨now', _, _, _, haccepted'⟩ := (outcome_of_returned hreturned').2 n' rfl
  by_contra hne
  have hretention : 601000000000 ≤ i.retention.toInt := Int64.le_iff_toInt_le.mp h
  rcases spaced_of_accepted hordered hne haccepted haccepted' rfl with hle | hle
  · refine absurd (haccepted.lt_of_same haccepted' rfl) (not_lt.mpr ?_)
    exact Int.le_trans (Int.add_le_add_left hretention _) hle
  · refine absurd (haccepted'.lt_of_same haccepted rfl) (not_lt.mpr ?_)
    exact Int.le_trans (Int.add_le_add_left hretention _) hle

/-- The alert comes in five minutes before its timestamp, and again in the last nanosecond in which
its signature is good. -/
theorem accepted_again {i : Ingress} (h : i.retention < 601 * 1000000000) {raw : Bytes}
    {value : Incoming} (hfits : raw.length ≤ i.maxBody.toInt) (hdecode : decode raw = .ok value) :
    ¬AcceptedOnce i := by
  have hretention : i.retention.toInt < 601000000000 := Int64.lt_iff_toInt_lt.mp h
  have hlater : Time.add 63135596500000000000 i.retention ≤ 63135597100999999999 := by
    change (63135596500000000000 : Int) + i.retention.toInt ≤ 63135597100999999999
    omega
  have hyear : Time.add 63135597100999999999 i.retention < 300000000000000000000 := by
    change (63135597100999999999 : Int) + i.retention.toInt < 300000000000000000000
    omega
  obtain ⟨actions, hspawn, hordered, n, n', hreturned, hreturned'⟩ := accepted_at i
    63135596800000000000 63135596500000000000 63135597100999999999 hfits hdecode (by decide)
    (by decide) (by decide) (by decide) (by decide) hlater hyear
  intro honce
  have heq := honce _ actions (fun c hc => congrArg Call.ingress (hspawn c hc))
    hordered 0 1 _ _ n n'
    hreturned hreturned'
  cases heq

/-- A webhook is accepted at most once exactly if the receipt outlives the signature, unless no
alert fits the body limit. -/
theorem accepted_once_iff (i : Ingress) : AcceptedOnce i ↔ 601 * 1000000000 ≤ i.retention ∨
    ¬∃ raw value, (raw.length : Int) ≤ i.maxBody.toInt ∧ decode raw = .ok value := by
  constructor
  · intro honce
    by_contra hneither
    rw [not_or, not_not, Int64.not_le] at hneither
    obtain ⟨hretention, raw, value, hfits, hdecode⟩ := hneither
    exact accepted_again hretention hfits hdecode honce
  · rintro (hretention | hnone)
    · exact acceptedOnce_of_retention hretention
    · intro s actions _ _ t t' headers raw n n' hreturned _
      obtain ⟨now, _, _, _, haccepted⟩ := (outcome_of_returned hreturned).2 n rfl
      obtain ⟨value, hdecode⟩ := haccepted.decodes
      exact absurd ⟨raw, value, haccepted.fits, hdecode⟩ hnone

/-- The shortest retention that is admitted. -/
theorem accepted_again_after_a_minute :
    newIngress { keyring := exampleKeyring, retention := 60 * 1000000000 } = .ok exampleIngress ∧
      ¬AcceptedOnce exampleIngress := by
  obtain ⟨value, hdecode⟩ := decode_exampleBody
  exact ⟨rfl, accepted_again (by decide) (by decide +kernel) hdecode⟩

end PulseAgent.Alert
