import PulseAgent.Delivery.Stored

/-!
# The life of a delivery

`Sound` is what holds of the queue at every point of every run when the generators return valid
UTF-8.
-/

namespace PulseAgent.Delivery

open Go Go.Json Contract Concurrent

/-! ## Counting -/

def isPending (document : Bytes) : Bool :=
  match decodeItem document with
  | .ok item => item.state = .pending
  | .error _ => false

theorem pendingCount_eq (s : Store) :
    pendingCount s = (s .deliveryQueue).toList.countP fun entry => isPending entry.2 := by
  unfold pendingCount items
  rw [List.countP_filterMap]
  refine List.countP_congr fun entry _ => ?_
  unfold storedItem isPending
  cases decodeItem entry.2 <;> simp [Except.toOption]

theorem pendingCount_insert_new {s s' : Store} {key document : Bytes}
    (hqueue : s' .deliveryQueue = (s .deliveryQueue).insert key document)
    (habsent : (s .deliveryQueue)[key]? = none) : pendingCount s' ≤ pendingCount s + 1 := by
  rw [pendingCount_eq, pendingCount_eq, hqueue,
    (TreeMap.toList_insert_perm habsent).countP_eq, List.countP_cons]
  split <;> omega

theorem pendingCount_replace {s s' : Store} {key document : Bytes} {old : Item}
    (hqueue : s' .deliveryQueue = (s .deliveryQueue).insert key document)
    (hloads : Loads s key old) (hpending : old.state = .pending) :
    pendingCount s' ≤ pendingCount s := by
  obtain ⟨found, hfound, hdecode⟩ := hloads
  rw [pendingCount_eq, pendingCount_eq, hqueue, TreeMap.toList_insert_of_some hfound,
    List.countP_map]
  refine List.countP_mono_left fun entry hentry hnew => ?_
  by_cases hkey : entry.1 = key
  · -- the entry that is replaced was pending before
    have hvalue : (s .deliveryQueue)[entry.1]? = some entry.2 :=
      Std.ExtTreeMap.mem_toList_iff_getElem?_eq_some.mp hentry
    rw [hkey, hfound] at hvalue
    rw [← Option.some.inj hvalue]
    unfold isPending
    rw [hdecode]
    exact decide_eq_true hpending
  · simpa only [Function.comp_apply, if_neg hkey] using hnew

/-- The failures that the audit log has for a delivery. -/
def failures (s : Store) (deliveryID : Bytes) : Nat :=
  (Audit.log s).countP fun event =>
    event.action = lit "delivery.failed" && event.aggregateID = deliveryID

def GivenUp (s : Store) (deliveryID : Bytes) : Prop :=
  ∃ item, Loads s (itemKey deliveryID) item ∧ item.deliveryID = deliveryID ∧
    (item.state = .failed ∨ item.state = .expired)

theorem failures_of_audit {s s' : Store} (h : s' .audit = s .audit) (deliveryID : Bytes) :
    failures s' deliveryID = failures s deliveryID := by
  unfold failures Audit.log
  rw [h]

theorem failures_ended {s s' : Store} {auditID id reason : Bytes} {now : Time} {event : AuditEvent}
    (hlog : Audit.log s' = Audit.log s ++ [event]) (hfailure : Failure auditID id reason now event)
    (deliveryID : Bytes) :
    failures s' deliveryID = failures s deliveryID + if deliveryID = id then 1 else 0 := by
  obtain ⟨-, haction, -, haggregate, -⟩ := hfailure
  unfold failures
  rw [hlog, List.countP_append, List.countP_singleton, haction, haggregate]
  by_cases heq : deliveryID = id
  · simp [heq]
  · simp [heq, Ne.symm heq]

/-! ## The invariant -/

/-- The audit log has one failure for each delivery that was given up, and no other. -/
def Audited (s : Store) : Prop :=
  ∀ deliveryID, (GivenUp s deliveryID → failures s deliveryID = 1) ∧
    (¬GivenUp s deliveryID → failures s deliveryID = 0)

theorem Audited.of_same {s s' : Store} (h : Audited s) (haudit : s' .audit = s .audit)
    (hgiven : ∀ deliveryID, GivenUp s' deliveryID ↔ GivenUp s deliveryID) : Audited s' := by
  intro deliveryID
  rw [hgiven, failures_of_audit haudit]
  exact h deliveryID

structure Sound (d : Dispatcher) (s : Store) : Prop extends Stored d s where
  keyed : ∀ key item, Loads s key item → itemKey item.deliveryID = key
  webhooks : ∀ key key' item item', Loads s key item → Loads s key' item' →
    item.webhookID = item'.webhookID → key = key'
  room : pendingCount s ≤ d.maxQueueItems
  audited : Audited s

namespace Sound

variable {d : Dispatcher} {s s' : Store}

theorem initial (hqueue : s .deliveryQueue = ∅)
    (hlog : ∀ event ∈ Audit.log s, event.action ≠ lit "delivery.failed") : Sound d s := by
  have hnone : ∀ key item, ¬Loads s key item := by
    intro key item
    refine not_loads_of_absent ?_ item
    rw [hqueue]
    exact Std.ExtTreeMap.getElem?_empty
  refine ⟨.initial hqueue, fun key item h => absurd h (hnone key item),
    fun key _ item _ h => absurd h (hnone key item), ?_, fun deliveryID => ?_⟩
  · rw [pendingCount_eq, hqueue]
    exact Nat.zero_le _
  · refine ⟨fun ⟨item, h, _⟩ => absurd h (hnone _ item), fun _ => List.countP_eq_zero.mpr ?_⟩
    intro event hevent hfailed
    simp only [Bool.and_eq_true, decide_eq_true_eq] at hfailed
    exact hlog event hevent hfailed.1

theorem of_unchanged (h : Sound d s) (hqueue : s' .deliveryQueue = s .deliveryQueue)
    (haudit : s' .audit = s .audit) : Sound d s' := by
  have hloads : ∀ key item, Loads s' key item ↔ Loads s key item := fun _ _ => loads_of_queue hqueue
  refine ⟨h.toStored.of_queue hqueue, ?_, ?_, ?_, h.audited.of_same haudit fun deliveryID => ?_⟩
  · simpa only [hloads] using h.keyed
  · simpa only [hloads] using h.webhooks
  · rw [pendingCount_eq, hqueue, ← pendingCount_eq]
    exact h.room
  · simp only [GivenUp, hloads]

section Changed

variable {key : Bytes} {old new : Item} (hloads : Loads s key old) (hchange : Change old new)
  (hput : Put key new s s')
include hloads hchange hput

theorem of_change (h : Sound d s) (hstored : Stored d s') (haudited : Audited s') : Sound d s' := by
  obtain ⟨⟨document, hqueue, -⟩, -⟩ := loads_of_put hloads (h.sized _ _ hloads) hchange hput
  have hfrom := h.from_of_change hloads hchange hput
  refine ⟨hstored, ?_, ?_, ?_, haudited⟩
  · intro other item hitem
    obtain ⟨before, hbefore, htext⟩ := hfrom other item hitem
    rw [htext.deliveryID]
    exact h.keyed other before hbefore
  · intro other other' item item' hitem hitem' hwebhook
    obtain ⟨before, hbefore, htext⟩ := hfrom other item hitem
    obtain ⟨before', hbefore', htext'⟩ := hfrom other' item' hitem'
    rw [htext.webhookID, htext'.webhookID] at hwebhook
    exact h.webhooks other other' before before' hbefore hbefore' hwebhook
  · exact (pendingCount_replace hqueue hloads hchange.pending).trans h.room

theorem givenUp_of_change (h : Sound d s) (deliveryID : Bytes) :
    GivenUp s' deliveryID ↔ if deliveryID = old.deliveryID then
      new.state = .failed ∨ new.state = .expired else GivenUp s deliveryID := by
  obtain ⟨-, hloads'⟩ := loads_of_put hloads (h.sized _ _ hloads) hchange hput
  have hkey := h.keyed key old hloads
  have htext := hchange.sameText.deliveryID
  unfold GivenUp
  split
  case isTrue heq =>
    subst heq
    rw [hkey]
    constructor
    · rintro ⟨item, hitem, -, hstate⟩
      have hcases := (hloads' key item).mp hitem
      rw [if_pos rfl] at hcases
      rw [← hcases]
      exact hstate
    · intro hstate
      exact ⟨new, (hloads' key new).mpr (by rw [if_pos rfl]), htext, hstate⟩
  case isFalse hne =>
    constructor
    · rintro ⟨item, hitem, hid, hstate⟩
      have hcases := (hloads' _ item).mp hitem
      split at hcases
      case isTrue =>
        rw [hcases, htext] at hid
        exact absurd hid.symm hne
      case isFalse => exact ⟨item, hcases, hid, hstate⟩
    · rintro ⟨item, hitem, hid, hstate⟩
      refine ⟨item, (hloads' _ item).mpr ?_, hid, hstate⟩
      split
      case isTrue heq =>
        rw [heq] at hitem
        rw [loads_unique hitem hloads] at hid
        exact absurd hid.symm hne
      case isFalse => exact hitem

end Changed

theorem not_givenUp (h : Sound d s) {key : Bytes} {item : Item} (hloads : Loads s key item)
    (hpending : item.state = .pending) : ¬GivenUp s item.deliveryID := by
  rintro ⟨other, hother, -, hstate⟩
  rw [h.keyed key item hloads] at hother
  rw [loads_unique hother hloads, hpending] at hstate
  rcases hstate with hstate | hstate <;> cases hstate

theorem audited_of_change (h : Sound d s) {key : Bytes} {old new : Item} (hloads : Loads s key old)
    (hchange : Change old new) (hput : Put key new s s')
    (hstate : new.state ≠ .failed ∧ new.state ≠ .expired) (haudit : s' .audit = s .audit) :
    Audited s' := by
  refine h.audited.of_same haudit fun deliveryID => ?_
  rw [h.givenUp_of_change hloads hchange hput]
  split
  case isTrue heq =>
    rw [heq]
    have hnot := h.not_givenUp hloads hchange.pending
    tauto
  case isFalse => exact Iff.rfl

theorem audited_of_ended (h : Sound d s) {key auditID reason : Bytes} {now : Time} {old : Item}
    {ending : Ending} {event : AuditEvent} (hloads : Loads s key old)
    (hpending : old.state = .pending) (hput : Put key { old with state := ending.state } s s')
    (hlog : Audit.log s' = Audit.log s ++ [event])
    (hfailure : Failure auditID old.deliveryID reason now event) : Audited s' := by
  have hended : ending.state = .failed ∨ ending.state = .expired := by
    cases ending
    · exact .inl rfl
    · exact .inr rfl
  intro deliveryID
  rw [h.givenUp_of_change hloads (.ended ending hpending) hput, failures_ended hlog hfailure]
  split
  case isTrue heq =>
    have hnone := (h.audited deliveryID).2 (heq ▸ h.not_givenUp hloads hpending)
    rw [hnone]
    exact ⟨fun _ => rfl, fun hnot => absurd hended hnot⟩
  case isFalse => exact h.audited deliveryID

theorem of_admitted (hsound : Sound d s) {request : EnqueueRequest} {item : Item} {h : History}
    {document : Bytes} (hoffered : Offered d request item h)
    (hdelivery : Utf8.validString item.deliveryID = true)
    (hwebhook : Utf8.validString item.webhookID = true)
    (hadmitted : Admitted d.maxQueueItems item s document)
    (hqueue : s' .deliveryQueue = (s .deliveryQueue).insert (itemKey item.deliveryID) document)
    (haudit : s' .audit = s .audit) : Sound d s' := by
  have hcases := new_or_old_of_admitted hoffered hadmitted hqueue
  have hid : (DeliveryQueueItem.codec.norm item).deliveryID = item.deliveryID :=
    Utf8.toValidUTF8_of_valid hdelivery
  have hwid : (DeliveryQueueItem.codec.norm item).webhookID = item.webhookID :=
    Utf8.toValidUTF8_of_valid hwebhook
  have hfresh : ∀ other found, Loads s other found → found.webhookID ≠ item.webhookID :=
    fun other found hfound => hadmitted.unused (other, found) (mem_items.mpr hfound)
  refine ⟨hsound.toStored.of_admitted hoffered hadmitted hqueue, ?_, ?_, ?_, ?_⟩
  · intro other found hfound
    rcases hcases other found hfound with ⟨rfl, rfl⟩ | hold
    · rw [hid]
    · exact hsound.keyed other found hold
  · intro other other' found found' hfound hfound' hsame
    rcases hcases other found hfound with ⟨rfl, rfl⟩ | hold <;>
      rcases hcases other' found' hfound' with ⟨rfl, rfl⟩ | hold'
    · rfl
    · rw [hwid] at hsame
      exact absurd hsame.symm (hfresh other' found' hold')
    · rw [hwid] at hsame
      exact absurd hsame (hfresh other found hold)
    · exact hsound.webhooks other other' found found' hold hold' hsame
  · exact (pendingCount_insert_new hqueue hadmitted.absent).trans hadmitted.room
  · refine hsound.audited.of_same haudit fun deliveryID => ⟨?_, ?_⟩
    · rintro ⟨found, hfound, hfoundID, hstate⟩
      rcases hcases _ found hfound with ⟨-, rfl⟩ | hold
      · rw [(norm_of_offered hoffered).1] at hstate
        rcases hstate with hstate | hstate <;> cases hstate
      · exact ⟨found, hold, hfoundID, hstate⟩
    · rintro ⟨found, hfound, hfoundID, hstate⟩
      obtain ⟨found', hfound', -, hsame⟩ :=
        kept_of_admitted hoffered hadmitted hqueue _ found hfound
      have heq : found' = found := hsame (by rcases hstate with h | h <;> rw [h] <;> decide)
      rw [heq] at hfound'
      exact ⟨found, hfound', hfoundID, hstate⟩

/-- The step lemma: no committed transaction breaks the invariant. -/
theorem effect (hsound : Sound d s) {h : History} {t : Transaction}
    (hallowed : Allowed (· = d) (· = d) (fun _ mutation => Apart mutation) h (.tx t))
    (hids : ∀ o id, Generated o id h → o = .newDeliveryID ∨ o = .newWebhookID →
      Utf8.validString id = true) (heffect : Effect t s s') : Sound d s' := by
  obtain ⟨hstored, -⟩ := hsound.toStored.effect hallowed heffect
  cases heffect with
  | unchanged t s s' hqueue haudit => exact hsound.of_unchanged hqueue haudit
  | admitted maxQueueItems item mutation s s' document hadmitted hqueue haudit =>
    obtain ⟨_, request, rfl, rfl, -, hoffered⟩ := hallowed
    have hdelivery := hids _ _ hoffered.deliveryGenerated (.inl rfl)
    have hwebhook := hids _ _ hoffered.webhookGenerated (.inr rfl)
    exact hsound.of_admitted hoffered hdelivery hwebhook hadmitted hqueue haudit
  | delivered key now s s' old hloads hpending hnow hput haudit =>
    have hchange := Change.delivered hpending
    exact hsound.of_change hloads hchange hput hstored
      (hsound.audited_of_change hloads hchange hput ⟨by simp, by simp⟩ haudit)
  | retried key nextAttempt nextAt s s' old hloads hpending hput haudit =>
    have hchange := Change.retried nextAttempt nextAt hpending
    exact hsound.of_change hloads hchange hput hstored
      (hsound.audited_of_change hloads hchange hput ⟨by simp [hpending], by simp [hpending]⟩ haudit)
  | ended key ending auditID now reason s s' old event hloads hpending hput hlog hfailure =>
    exact hsound.of_change hloads (.ended ending hpending) hput hstored
      (hsound.audited_of_ended hloads hpending hput hlog hfailure)

end Sound

/-! ## Runs -/

/-- The generators of delivery and webhook IDs return valid UTF-8. -/
def ValidIDs [UnicodeTables] (actions : List (Action system)) : Prop :=
  ∀ thread (answers : Op → Environment), Action.step thread answers ∈ actions →
    ∀ o, o = .newDeliveryID ∨ o = .newWebhookID → ∀ id, (answers o).id = .ok id →
      Utf8.validString id = true

section Runs

variable [UnicodeTables] {d : Dispatcher} {s : Store}

/-- The run lemma: the invariant holds at every point. -/
theorem sound_of_run (hs : Sound d s) (actions : List (Action system))
    (hcalls : ∀ call, Action.spawn call ∈ actions → call.Serves d) (hids : ValidIDs actions) :
    Sound d (run s actions).state := by
  have hallowed := allowed_of_run s actions fun call hcall => (hcalls call hcall).within
  refine (invariant_of_events (Sound d) hs actions (fun e he hsound => ?_) fun m s hsound =>
    hsound.of_unchanged (move_owned m s rfl) (move_owned m s rfl)).1
  obtain ⟨later, earlier, hlog⟩ := List.append_of_mem he
  have hop := hallowed later e earlier hlog
  change Sound d (perform e.op e.answer e.before).2
  obtain heq | ⟨t, ht, heffect⟩ := perform_effect hop e.answer e.before
  · rw [heq]
    exact hsound
  · rw [ht] at hop
    refine hsound.effect hop ?_ heffect
    rintro o id ⟨env, before, hmem, henv⟩ ho
    obtain ⟨x, hx, hoccurred, -⟩ := mem_of_mem_history hmem
    have hxlog : x ∈ (run s actions).log := by
      rw [hlog]
      exact List.mem_append_right _ (List.mem_cons_of_mem e hx)
    obtain ⟨answers, hanswers, hanswer⟩ := answer_of_run hxlog
    refine hids x.thread answers hanswers o ho id ?_
    rw [← henv]
    obtain ⟨⟨op, answer, state⟩, thread⟩ := x
    cases hoccurred
    exact congrArg Environment.id hanswer

/-- The life of the queue, from an empty one on, through every interleaving and every crash. -/
theorem queue_lifecycle (hqueue : s .deliveryQueue = ∅)
    (hlog : ∀ event ∈ Audit.log s, event.action ≠ lit "delivery.failed")
    (actions rest : List (Action system))
    (hcalls : ∀ call, Action.spawn call ∈ actions ++ rest → call.Serves d)
    (hids : ValidIDs (actions ++ rest)) :
    (∀ key item, Loads (run s actions).state key item →
      ∃ item', Loads (run s (actions ++ rest)).state key item' ∧ SameText item item' ∧
        (item.state ≠ .pending → item' = item)) ∧
    (∀ key document, ((run s actions).state .deliveryQueue)[key]? = some document →
      ∃ item, decodeItem document = .ok item ∧ itemKey item.deliveryID = key) ∧
    (∀ key key' item item', Loads (run s actions).state key item →
      Loads (run s actions).state key' item' → item.webhookID = item'.webhookID → key = key') ∧
    pendingCount (run s actions).state ≤ d.maxQueueItems ∧
    (∀ key item, Loads (run s actions).state key item → item.state = .pending →
      item.attemptCount < d.maxAttempts ∧ item.nextAttemptAt < item.expiresAt) ∧
    ∀ deliveryID,
      (GivenUp (run s actions).state deliveryID → failures (run s actions).state deliveryID = 1) ∧
      (¬GivenUp (run s actions).state deliveryID →
        failures (run s actions).state deliveryID = 0) := by
  have hinitial : Sound d s := .initial hqueue hlog
  have hsound := sound_of_run hinitial actions
    (fun call hcall => hcalls call (List.mem_append_left rest hcall))
    fun thread answers hstep => hids thread answers (List.mem_append_left rest hstep)
  refine ⟨kept_of_run hinitial.toStored actions rest hcalls, fun key document hdocument => ?_,
    hsound.webhooks, hsound.room, ?_, hsound.audited⟩
  · obtain ⟨item, hdecode⟩ := hsound.readable key document hdocument
    exact ⟨item, hdecode, hsound.keyed key item ⟨document, hdocument, hdecode⟩⟩
  · intro key item hloads hpending
    refine ⟨hsound.attempts key item hloads hpending, ?_⟩
    obtain ⟨document, -, hdecode⟩ := hloads
    obtain ⟨-, -, -, -, -, -, -, -, -, hbefore, -⟩ := validate_ok.mp (decodeItem_ok hdecode).2
    exact hbefore

end Runs

section Example

def exampleDestinations : Std.ExtTreeMap Bytes Bytes :=
  (∅ : Std.ExtTreeMap Bytes Bytes).insert (lit "ops") (lit "https://hooks.internal/pulse")

theorem exampleDestinations_valid (reference endpoint : Bytes)
    (h : exampleDestinations[reference]? = some endpoint) :
    validToken reference maxDestinationRefLength = true := by
  unfold exampleDestinations at h
  rw [Std.ExtTreeMap.getElem?_insert] at h
  split at h
  case isTrue heq =>
    rw [← Std.LawfulEqCmp.eq_of_compare heq]
    decide +kernel
  case isFalse =>
    rw [Std.ExtTreeMap.getElem?_empty] at h
    cases h

def exampleDispatcher : Dispatcher where
  keyring := ⟨⟨List.replicate 32 7, by decide⟩, none⟩
  destinations := exampleDestinations
  maxQueueItems := 1
  maxAttempts := 3
  initialBackoff := 1000000000
  maxBackoff := 4000000000
  maxPayloadBytes := 65536
  references := exampleDestinations_valid
  queueItems := by decide
  attempts := by decide
  backoffs := by decide
  payloadBytes := by decide

def exampleAnswers : Op → Environment := fun _ =>
  { now := 63776073600000000000
    id := .ok (lit "wh_01")
    cancelled := none
    payload := .ok (lit "null")
    response := ⟨false, false, some 503⟩
    fault := none }

/-- An item is enqueued and sent once, and a crash follows. -/
def exampleRun : List (Action (@system asciiTables)) :=
  .spawn (.enqueue exampleDispatcher
    ⟨.lifecycleEvent, lit "event_01", lit "ops", 63776073660000000000⟩) ::
  List.replicate 4 (.step 0 exampleAnswers) ++
  .spawn (.deliverDue exampleDispatcher) :: List.replicate 9 (.step 1 exampleAnswers) ++ [.crash]

theorem queue_lifecycle_enqueue_and_pass :
    pendingCount (@run asciiTables Store.empty exampleRun).state ≤ 1 := by
  have hcalls : ∀ call : Call, Action.spawn call ∈ exampleRun ++ [] →
      call.Serves exampleDispatcher := by
    intro call hcall
    simp only [exampleRun, List.replicate, List.cons_append, List.nil_append, List.append_nil,
      List.mem_cons, Action.spawn.injEq, reduceCtorEq, List.not_mem_nil, false_or,
        or_false] at hcall
    rcases hcall with rfl | rfl <;> rfl
  have hids : @ValidIDs asciiTables (exampleRun ++ []) := by
    intro thread answers hstep o _ id hid
    have hanswers : answers = exampleAnswers := by
      simp only [exampleRun, List.replicate, List.cons_append, List.nil_append, List.append_nil,
        List.mem_cons, reduceCtorEq, List.not_mem_nil, false_or, or_false, or_self,
          or_self_left] at hstep
      rcases hstep with heq | heq <;> injection heq
    rw [hanswers] at hid
    cases hid
    decide +kernel
  have hlog : ∀ event ∈ Audit.log Store.empty, event.action ≠ lit "delivery.failed" := by
    intro event hevent
    cases hevent
  exact (@queue_lifecycle asciiTables exampleDispatcher Store.empty rfl hlog exampleRun []
    hcalls hids).2.2.2.1

end Example

end PulseAgent.Delivery
