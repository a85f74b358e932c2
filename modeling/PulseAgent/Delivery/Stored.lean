import PulseAgent.Delivery.Readback
import PulseAgent.Delivery.System

/-!
# What is stored in the queue

`Stored` holds at every point of every run, whatever identifiers the generators return; `Kept` says
what a later point keeps of an earlier one.
-/

namespace PulseAgent.Delivery

open Go Go.Json Contract Concurrent

/-! ## Items after a write -/

section Write

variable {s s' : Store} {key document : Bytes} {item : Item}

theorem loads_of_insert (hqueue : s' .deliveryQueue = (s .deliveryQueue).insert key document)
    (hdecode : decodeItem document = .ok item) {other : Bytes} {found : Item} :
    Loads s' other found ↔ if other = key then found = item else Loads s other found := by
  unfold Loads
  rw [hqueue]
  split
  case isTrue heq =>
    subst heq
    rw [Std.ExtTreeMap.getElem?_insert_self]
    constructor
    · rintro ⟨_, hdocument, hfound⟩
      cases hdocument
      rw [hdecode] at hfound
      exact (Except.ok.inj hfound).symm
    · rintro rfl
      exact ⟨document, rfl, hdecode⟩
  case isFalse hne =>
    rw [Std.ExtTreeMap.getElem?_insert, if_neg]
    exact fun hcompare => hne (Std.LawfulEqCmp.eq_of_compare hcompare).symm

theorem loads_of_put {old new : Item} (hloads : Loads s key old) (hsized : Sized old)
    (hchange : Change old new) (hput : Put key new s s') :
    (∃ document, s' .deliveryQueue = (s .deliveryQueue).insert key document ∧
      decodeItem document = .ok new) ∧
    ∀ other found, Loads s' other found ↔
      if other = key then found = new else Loads s other found := by
  obtain ⟨document, hwritten, hqueue⟩ := hput.write
  have hnorm := hchange.norm_eq (norm_of_itemAt hloads.itemAt)
  have hdecode := hwritten.decodeItem (hsized.sameText hchange.sameText)
  rw [hnorm] at hdecode
  exact ⟨⟨document, hqueue, hdecode⟩, fun _ _ => loads_of_insert hqueue hdecode⟩

theorem loads_unique {found other : Item} (h : Loads s key found) (h' : Loads s key other) :
    found = other := by
  obtain ⟨document, hdocument, hdecode⟩ := h
  obtain ⟨_, hdocument', hdecode'⟩ := h'
  rw [hdocument] at hdocument'
  cases hdocument'
  rw [hdecode] at hdecode'
  exact Except.ok.inj hdecode'

theorem loads_of_queue (hqueue : s' .deliveryQueue = s .deliveryQueue) {found : Item} :
    Loads s' key found ↔ Loads s key found := by
  unfold Loads
  rw [hqueue]

theorem not_loads_of_absent (habsent : (s .deliveryQueue)[key]? = none) (found : Item) :
    ¬Loads s key found := by
  rintro ⟨_, hdocument, -⟩
  rw [habsent] at hdocument
  cases hdocument

end Write

/-! ## What the queue keeps -/

/-- Every item is still there, with the same texts, and unchanged once it is no longer pending. -/
def Kept (s s' : Store) : Prop :=
  ∀ key item, Loads s key item → ∃ item', Loads s' key item' ∧ SameText item item' ∧
    (item.state ≠ .pending → item' = item)

namespace Kept

variable {a b c : Store}

theorem refl (s : Store) : Kept s s := fun _ item h => ⟨item, h, SameText.refl item, fun _ => rfl⟩

theorem of_queue (h : b .deliveryQueue = a .deliveryQueue) : Kept a b := fun _ item hloads =>
  ⟨item, (loads_of_queue h).mpr hloads, SameText.refl item, fun _ => rfl⟩

theorem trans (h : Kept a b) (h' : Kept b c) : Kept a c := by
  intro key item hloads
  obtain ⟨item', hloads', hsame, habsorbed⟩ := h key item hloads
  obtain ⟨item'', hloads'', hsame', habsorbed'⟩ := h' key item' hloads'
  refine ⟨item'', hloads'', hsame.trans hsame', fun hstate => ?_⟩
  obtain rfl := habsorbed hstate
  exact habsorbed' hstate

end Kept

/-! ## The invariant -/

structure Stored (d : Dispatcher) (s : Store) : Prop where
  readable : ∀ (key document : Bytes), (s .deliveryQueue)[key]? = some document →
    ∃ item, decodeItem document = .ok item
  sized : ∀ key item, Loads s key item → Sized item
  /-- A pending item has attempts left. -/
  attempts : ∀ key item, Loads s key item → item.state = .pending →
    item.attemptCount < d.maxAttempts

namespace Stored

variable {d : Dispatcher} {s s' : Store}

theorem initial (hqueue : s .deliveryQueue = ∅) : Stored d s := by
  have hnone : ∀ key item, ¬Loads s key item := by
    intro key item
    refine not_loads_of_absent ?_ item
    rw [hqueue]
    exact Std.ExtTreeMap.getElem?_empty
  refine ⟨fun key document hdocument => ?_, fun key item h => absurd h (hnone key item),
    fun key item h => absurd h (hnone key item)⟩
  rw [hqueue, Std.ExtTreeMap.getElem?_empty] at hdocument
  cases hdocument

theorem of_queue (h : Stored d s) (hqueue : s' .deliveryQueue = s .deliveryQueue) :
    Stored d s' := by
  have hloads : ∀ key item, Loads s' key item ↔ Loads s key item := fun _ _ => loads_of_queue hqueue
  refine ⟨?_, ?_, ?_⟩
  · rw [hqueue]
    exact h.readable
  · simpa only [hloads] using h.sized
  · simpa only [hloads] using h.attempts

/-! One item changes. -/

section Changed

variable {key : Bytes} {old new : Item} (hloads : Loads s key old) (hchange : Change old new)
  (hput : Put key new s s')
include hloads hchange hput

theorem from_of_change (h : Stored d s) (other : Bytes) (item : Item)
    (hitem : Loads s' other item) :
    ∃ before, Loads s other before ∧ SameText before item := by
  obtain ⟨-, hloads'⟩ := loads_of_put hloads (h.sized key old hloads) hchange hput
  have hcases := (hloads' other item).mp hitem
  split at hcases
  case isTrue heq =>
    rw [hcases, heq]
    exact ⟨old, hloads, hchange.sameText⟩
  case isFalse => exact ⟨item, hcases, SameText.refl item⟩

theorem kept_of_change (h : Stored d s) : Kept s s' := by
  obtain ⟨-, hloads'⟩ := loads_of_put hloads (h.sized key old hloads) hchange hput
  intro other item hitem
  by_cases heq : other = key
  · subst heq
    obtain rfl := loads_unique hitem hloads
    refine ⟨new, (hloads' other new).mpr (by rw [if_pos rfl]), hchange.sameText, fun hstate => ?_⟩
    exact absurd hchange.pending hstate
  · exact ⟨item, (hloads' other item).mpr (by rwa [if_neg heq]), SameText.refl item, fun _ => rfl⟩

theorem of_change (h : Stored d s)
    (hattempts : new.state = .pending → new.attemptCount < d.maxAttempts) : Stored d s' := by
  obtain ⟨⟨document, hqueue, hdecode⟩, hloads'⟩ :=
    loads_of_put hloads (h.sized key old hloads) hchange hput
  refine ⟨?_, ?_, ?_⟩
  · intro other found hfound
    rw [hqueue, Std.ExtTreeMap.getElem?_insert] at hfound
    split at hfound
    case isTrue =>
      cases hfound
      exact ⟨new, hdecode⟩
    case isFalse => exact h.readable other found hfound
  · intro other item hitem
    obtain ⟨before, hbefore, htext⟩ := h.from_of_change hloads hchange hput other item hitem
    exact (h.sized other before hbefore).sameText htext
  · intro other item hitem hpending
    have hcases := (hloads' other item).mp hitem
    split at hcases
    case isTrue =>
      rw [hcases] at hpending ⊢
      exact hattempts hpending
    case isFalse => exact h.attempts other item hcases hpending

end Changed

end Stored

/-! ## Admission -/

theorem Offered.lengths {d : Dispatcher} {request : EnqueueRequest} {item : Item} {h : History}
    (hoffered : Offered d request item h) :
    item.deliveryID.length ≤ 256 ∧ item.payloadRef.length ≤ 256 ∧ item.webhookID.length ≤ 256 ∧
      item.destinationRef.length ≤ 256 := by
  obtain ⟨now, -, -, hsign, hitem⟩ := hoffered.made
  have hvalid := hoffered.valid
  simp only [Dispatcher.validateEnqueueRequest, Bool.and_eq_true] at hvalid
  have hpayload := length_of_validToken hvalid.1.1.1.2
  have hdestination := (length_of_validToken hvalid.1.1.2).trans (show _ ≤ 256 by decide)
  have hwebhook := Webhook.length_of_validMessageID (Webhook.Keyring.sign_isOk.mp hsign).1
  refine ⟨length_of_validToken hoffered.deliveryID, ?_, hwebhook, ?_⟩
  · rw [hitem]
    exact hpayload
  · rw [hitem]
    exact hdestination

section Admission

variable {d : Dispatcher} {s s' : Store} {request : EnqueueRequest} {item : Item} {h : History}
  {document : Bytes} (hoffered : Offered d request item h)
  (hadmitted : Admitted d.maxQueueItems item s document)
  (hqueue : s' .deliveryQueue = (s .deliveryQueue).insert (itemKey item.deliveryID) document)
include hoffered hadmitted hqueue

theorem loads_of_admitted : decodeItem document = .ok (DeliveryQueueItem.codec.norm item) ∧
    ∀ other found, Loads s' other found ↔ if other = itemKey item.deliveryID then
      found = DeliveryQueueItem.codec.norm item else Loads s other found := by
  obtain ⟨hdelivery, hpayload, hwebhook, hdestination⟩ := hoffered.lengths
  have hwide : 256 ≤ 768 := by decide
  have hdecode := hadmitted.written.decodeItem ⟨hdelivery.trans hwide, hpayload.trans hwide,
    hwebhook.trans hwide, hdestination.trans hwide⟩
  exact ⟨hdecode, fun _ _ => loads_of_insert hqueue hdecode⟩

theorem new_or_old_of_admitted (other : Bytes) (found : Item) (hfound : Loads s' other found) :
    (other = itemKey item.deliveryID ∧ found = DeliveryQueueItem.codec.norm item) ∨
      Loads s other found := by
  have hsplit := ((loads_of_admitted hoffered hadmitted hqueue).2 other found).mp hfound
  split at hsplit
  case isTrue heq => exact .inl ⟨heq, hsplit⟩
  case isFalse => exact .inr hsplit

theorem kept_of_admitted : Kept s s' := by
  intro other found hfound
  refine ⟨found, ((loads_of_admitted hoffered hadmitted hqueue).2 other found).mpr ?_,
    SameText.refl found, fun _ => rfl⟩
  split
  case isTrue heq =>
    rw [heq] at hfound
    exact absurd hfound (not_loads_of_absent hadmitted.absent found)
  case isFalse => exact hfound

omit hadmitted hqueue in
theorem norm_of_offered : (DeliveryQueueItem.codec.norm item).state = .pending ∧
    (DeliveryQueueItem.codec.norm item).attemptCount = 0 := by
  obtain ⟨now, -, -, -, hitem⟩ := hoffered.made
  rw [hitem]
  exact ⟨norm_state (show DeliveryState.valid .pending = true from rfl), rfl⟩

theorem Stored.of_admitted (hstored : Stored d s) : Stored d s' := by
  obtain ⟨hdecode, -⟩ := loads_of_admitted hoffered hadmitted hqueue
  have hcases := new_or_old_of_admitted hoffered hadmitted hqueue
  obtain ⟨hsize1, hsize2, hsize3, hsize4⟩ := hoffered.lengths
  refine ⟨?_, ?_, ?_⟩
  · intro other found hfound
    rw [hqueue, Std.ExtTreeMap.getElem?_insert] at hfound
    split at hfound
    case isTrue =>
      cases hfound
      exact ⟨_, hdecode⟩
    case isFalse => exact hstored.readable other found hfound
  · intro other found hfound
    rcases hcases other found hfound with ⟨-, rfl⟩ | hold
    · exact Sized.norm hsize1 hsize2 hsize3 hsize4
    · exact hstored.sized other found hold
  · intro other found hfound hstate
    rcases hcases other found hfound with ⟨-, rfl⟩ | hold
    · rw [(norm_of_offered hoffered).2]
      exact Int64.lt_iff_toInt_lt.mpr (Int.lt_of_lt_of_le Int.zero_lt_one d.attempts.1)
    · exact hstored.attempts other found hold hstate

end Admission

/-! ## Runs -/

/-- The mutation touches neither the queue nor the audit log. -/
def Apart (mutation : Option (TxProg Unit)) : Prop :=
  ∀ prog, mutation = some prog → prog.Avoids .deliveryQueue ∧ prog.Avoids .audit

/-- The call works under the options of `d`. -/
def Call.Serves (d : Dispatcher) : Call → Prop
  | .enqueue d' _ => d' = d
  | .enqueueWithMutation d' _ mutation => d' = d ∧ Apart (some mutation)
  | .deliverDue d' => d' = d
  | .publish p _ => p.queue = d
  | .publishTerminal p _ => p.queue = d ∧ p.lifecycle.queue = d

theorem avoids_storePayload {bucket avoided : Bucket} (h : bucket ≠ avoided) (key document : Bytes)
    (present : Error) : (Lifecycle.storePayload bucket key document present).Avoids avoided := by
  intro found
  rcases found with e | _ | value
  · trivial
  · exact ⟨h, fun _ => trivial⟩
  · trivial

theorem apart_storePayload {bucket : Bucket} (hqueue : bucket ≠ .deliveryQueue)
    (haudit : bucket ≠ .audit) (key document : Bytes) (present : Error) :
    Apart (some (Lifecycle.storePayload bucket key document present)) := by
  intro prog hprog
  cases hprog
  exact ⟨avoids_storePayload hqueue key document present,
    avoids_storePayload haudit key document present⟩

theorem Call.Serves.within [UnicodeTables] {d : Dispatcher} {call : Call} (h : call.Serves d) :
    call.Within (· = d) (· = d) fun _ mutation => Apart mutation := by
  have hevents : ∀ p input, p.queue = d → Publishes (· = d) (fun _ mutation => Apart mutation) p
      input := fun p input hp =>
    ⟨hp, fun _ _ _ _ => apart_storePayload (by decide) (by decide) _ _ _⟩
  cases call with
  | enqueue d' request => exact ⟨h, fun _ hnone => by cases hnone⟩
  | enqueueWithMutation d' request mutation => exact h
  | deliverDue d' => exact h
  | publish p input => exact hevents p input h
  | publishTerminal p input =>
    refine ⟨h.1, fun occurredAt report event _ => ⟨hevents p.lifecycle event h.2, fun _ _ => ?_⟩⟩
    exact apart_storePayload (by decide) (by decide) _ _ _

theorem spares_of_allowed {d : Dispatcher} {h : History} {t : Transaction}
    (hallowed : Allowed (· = d) (· = d) (fun _ mutation => Apart mutation) h (.tx t)) :
    t.Spares := by
  cases t with
  | enqueue maxQueueItems item mutation =>
    obtain ⟨-, -, -, -, hm, -⟩ := hallowed
    cases mutation with
    | none => trivial
    | some mutation => exact hm mutation rfl
  | _ => trivial

/-- The step lemma: every committed transaction keeps what is stored. -/
theorem Stored.effect {d : Dispatcher} {s s' : Store} (hstored : Stored d s) {h : History}
    {t : Transaction} (hallowed :
      Allowed (· = d) (· = d) (fun _ mutation => Apart mutation) h (.tx t))
    (heffect : Effect t s s') : Stored d s' ∧ Kept s s' := by
  cases heffect with
  | unchanged t s s' hqueue haudit => exact ⟨hstored.of_queue hqueue, .of_queue hqueue⟩
  | admitted maxQueueItems item mutation s s' document hadmitted hqueue haudit =>
    obtain ⟨_, request, rfl, rfl, -, hoffered⟩ := hallowed
    exact ⟨hstored.of_admitted hoffered hadmitted hqueue,
      kept_of_admitted hoffered hadmitted hqueue⟩
  | delivered key now s s' old hloads hpending hnow hput haudit =>
    have hchange := Change.delivered hpending
    exact ⟨hstored.of_change hloads hchange hput (fun hstate => by cases hstate),
      hstored.kept_of_change hloads hchange hput⟩
  | retried key nextAttempt nextAt s s' old hloads hpending hput haudit =>
    have hchange := Change.retried nextAttempt nextAt hpending
    obtain ⟨_, rfl, hattempts⟩ := hallowed
    exact ⟨hstored.of_change hloads hchange hput fun _ => hattempts,
      hstored.kept_of_change hloads hchange hput⟩
  | ended key ending auditID now reason s s' old event hloads hpending hput hlog hfailure =>
    have hchange := Change.ended ending hpending
    exact ⟨hstored.of_change hloads hchange hput (fun hstate => by cases ending <;> cases hstate),
      hstored.kept_of_change hloads hchange hput⟩

theorem perform_effect {d : Dispatcher} {h : History} {o : Op}
    (hallowed : Allowed (· = d) (· = d) (fun _ mutation => Apart mutation) h o) (env : Environment)
    (s : Store) : (perform o env s).2 = s ∨ ∃ t, o = .tx t ∧ Effect t s (perform o env s).2 := by
  cases o with
  | tx t =>
    obtain heq | ⟨a, hbody⟩ := t.run_state env.fault s
    · exact .inl heq
    · exact .inr ⟨t, rfl, body_effect (spares_of_allowed hallowed) hbody⟩
  | _ => exact .inl rfl

section Runs

variable [UnicodeTables] {d : Dispatcher} {s : Store}

/-- The run lemma: what is stored is so at every point, and no event loses an item. -/
theorem stored_of_run (hs : Stored d s) (actions : List (Action system))
    (hcalls : ∀ call, Action.spawn call ∈ actions → call.Serves d) :
    Stored d (run s actions).state ∧
      ∀ e ∈ (run s actions).log, Stored d e.before ∧ Kept e.before e.after := by
  have hallowed := allowed_of_run s actions fun call hcall => (hcalls call hcall).within
  have hstep : ∀ e ∈ (run s actions).log, Stored d e.before →
      Stored d e.after ∧ Kept e.before e.after := by
    intro e he hstored
    obtain ⟨later, earlier, hlog⟩ := List.append_of_mem he
    have hop := hallowed later e earlier hlog
    change Stored d (perform e.op e.answer e.before).2 ∧ Kept _ (perform e.op e.answer e.before).2
    obtain heq | ⟨t, ht, heffect⟩ := perform_effect hop e.answer e.before
    · rw [heq]
      exact ⟨hstored, Kept.refl _⟩
    · rw [ht] at hop
      exact hstored.effect hop heffect
  have hmove : ∀ m s, Stored d s → Stored d (system.move m s) := fun m s hstored =>
    hstored.of_queue (move_owned m s rfl)
  obtain ⟨hstored, hall⟩ := invariant_of_events (Stored d) hs actions
    (fun e he hbefore => (hstep e he hbefore).1) hmove
  exact ⟨hstored, fun e he => ⟨(hall e he).1, (hstep e he (hall e he).1).2⟩⟩

theorem kept_of_run (hs : Stored d s) (actions rest : List (Action system))
    (hcalls : ∀ call, Action.spawn call ∈ actions ++ rest → call.Serves d) :
    Kept (run s actions).state (run s (actions ++ rest)).state :=
  related_of_events Kept.refl Kept.trans (fun m s => .of_queue (move_owned m s rfl)) s actions rest
    fun e he => ((stored_of_run hs (actions ++ rest) hcalls).2 e he).2

end Runs

end PulseAgent.Delivery
