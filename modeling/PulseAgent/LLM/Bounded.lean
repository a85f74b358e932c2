import Mathlib.Data.List.Basic
import PulseAgent.Go.Errors

/-!
# The bounded model

`GenerateContent` hands on what a delegate yields and may try again when the provider refuses for
quota. A delegate may yield for ever, so the calls of `yield` are those made before the fuel of an
attempt is used up.
-/

namespace PulseAgent.LLM

open Go

def errInvalidOptions : Error := .new "invalid llm options"
def errUnavailable : Error := .new "llm unavailable"
def errTimeout : Error := .new "llm timeout"
def errQuota : Error := .new "llm quota exceeded"
def errMalformedResponse : Error := .new "llm malformed response"
def errToolsForbidden : Error := .new "llm tools are forbidden"

def errDeadlineExceeded : Error := .new "context deadline exceeded"

def statusTooManyRequests : Int := 429

/-- An error of the delegate, with the code of the `genai.APIError` in its chain and whether the
deadline of the call had passed when it came. -/
structure Failure where
  err : Error
  apiCode : Option Int := none
  expired : Bool := false

def classifyError (failure : Failure) : Error :=
  if failure.expired || failure.err.is errDeadlineExceeded then errTimeout
  else if failure.apiCode = some statusTooManyRequests then errQuota
  else if failure.err.is errTimeout || failure.err.is errQuota ||
      failure.err.is errMalformedResponse || failure.err.is errToolsForbidden then failure.err
  else errUnavailable

structure Response (Content : Type) where
  turnComplete : Bool
  content : Content

section

variable {Content : Type}

/-- What a delegate yields: a response, which may be nil, and an error. -/
structure Item (Content : Type) where
  response : Option (Response Content)
  error : Option Failure

/-- What the delegate yields in each attempt, in order; the sequence ends with `none` or not at
all. -/
abbrev Delegate (Content : Type) := Nat → Nat → Option (Item Content)

structure BoundedModel (Content : Type) where
  delegate : Option (Delegate Content)
  maxAttempts : Int

/-- The number of tools decides whether the request is refused. -/
structure Request where
  tools : Nat

structure Call (Content : Type) where
  response : Option (Response Content)
  error : Option Error
  answer : Bool

/-- The consumer's answer to each call, by its number. -/
abbrev Consumer := Nat → Bool

def yield (consumer : Consumer) (calls : List (Call Content)) (response : Option (Response Content))
    (error : Option Error) : Bool × List (Call Content) :=
  (consumer calls.length, calls ++ [⟨response, error, consumer calls.length⟩])

/-- How an attempt ends: with the flags it returns, or not within the fuel. -/
inductive Attempt where
  | running
  | returned (retry completed : Bool)
deriving DecidableEq

def generateOnce (consumer : Consumer) (stream : Bool) (items : Nat → Option (Item Content)) :
    Nat → Nat → Bool → Bool → List (Call Content) → Attempt × List (Call Content)
  | 0, _, _, _, calls => (.running, calls)
  | fuel + 1, index, emitted, completed, calls =>
    match items index with
    | none => (.returned false (completed || !stream), calls)
    | some ⟨_, some failure⟩ =>
      let classified := classifyError failure
      if classified = errQuota && !stream && !emitted then (.returned true false, calls)
      else (.returned false false, (yield consumer calls none (some classified)).2)
    | some ⟨none, none⟩ =>
      (.returned false false, (yield consumer calls none (some errMalformedResponse)).2)
    | some ⟨some response, none⟩ =>
      let completed := completed || response.turnComplete
      let yielded := yield consumer calls (some response) none
      if !yielded.1 then (.returned false completed, yielded.2)
      else generateOnce consumer stream items fuel (index + 1) true completed yielded.2

def attempts (consumer : Consumer) (stream : Bool) (delegate : Delegate Content) (fuel : Nat) :
    Nat → Nat → List (Call Content) → List (Call Content)
  | 0, _, calls => calls
  | left + 1, attempt, calls =>
    match generateOnce consumer stream (delegate attempt) fuel 0 false false calls with
    | (.running, calls) => calls
    | (.returned true _, calls) =>
      if 0 < left then attempts consumer stream delegate fuel left (attempt + 1) calls
      else (yield consumer calls none (some errQuota)).2
    | (.returned false completed, calls) =>
      if stream && !completed then (yield consumer calls none (some errMalformedResponse)).2
      else calls

def generateContent (m : Option (BoundedModel Content)) (ctx : Option Unit)
    (request : Option Request)
    (stream : Bool) (consumer : Consumer) (fuel : Nat) : List (Call Content) :=
  match m, ctx, request with
  | some ⟨some delegate, maxAttempts⟩, some _, some request =>
    if request.tools ≠ 0 then (yield consumer [] none (some errToolsForbidden)).2
    else attempts consumer stream delegate fuel maxAttempts.toNat 0 []
  | _, _, _ => (yield consumer [] none (some errInvalidOptions)).2

/-- The protocol of an iterator: no call comes after one that the consumer answered with no, none
after one that carried an error, and so at most one carries an error. -/
structure Obeys (calls : List (Call Content)) : Prop where
  stops : ∀ before call after, calls = before ++ call :: after → call.answer = false → after = []
  ends : ∀ before call after, calls = before ++ call :: after → call.error ≠ none → after = []
  once : calls.countP (·.error.isSome) ≤ 1

/-! ## Lists of calls -/

/-- The consumer has taken every response so far, and there was no error. -/
def Open (calls : List (Call Content)) : Prop :=
  ∀ call ∈ calls, call.answer = true ∧ call.error = none

theorem open_nil : Open ([] : List (Call Content)) := fun _ h => absurd h List.not_mem_nil

theorem countP_of_open {calls : List (Call Content)} (h : Open calls) :
    calls.countP (·.error.isSome) = 0 := by
  rw [List.countP_eq_zero]
  intro call hcall
  simp [(h call hcall).2]

theorem obeys_append {calls : List (Call Content)} (h : Open calls) (last : Call Content) :
    Obeys (calls ++ [last]) := by
  have hlast : ∀ before call after, calls ++ [last] = before ++ call :: after →
      ¬(call.answer = true ∧ call.error = none) → after = [] := by
    intro before call after heq hbad
    rcases List.eq_nil_or_concat after with rfl | ⟨init, final, rfl⟩
    · rfl
    · rw [List.concat_eq_append, ← List.cons_append, ← List.append_assoc] at heq
      obtain ⟨rfl, -⟩ := List.append_inj' heq rfl
      exact absurd (h call (by simp)) hbad
  refine ⟨fun before call after heq hanswer => hlast before call after heq (by simp [hanswer]),
    fun before call after heq herror => hlast before call after heq fun hgood => herror hgood.2, ?_⟩
  rw [List.countP_append, countP_of_open h, Nat.zero_add]
  exact List.countP_le_length

theorem obeys_of_open {calls : List (Call Content)} (h : Open calls) : Obeys calls := by
  rcases List.eq_nil_or_concat calls with rfl | ⟨init, last, rfl⟩
  · refine ⟨fun before call after heq => ?_, fun before call after heq => ?_, Nat.zero_le _⟩
    · simp at heq
    · simp at heq
  · rw [List.concat_eq_append] at h ⊢
    exact obeys_append (fun call hcall => h call (List.mem_append_left _ hcall)) last

theorem not_obeys_append {calls : List (Call Content)} {stopped late : Call Content}
    (h : stopped.answer = false ∨ stopped.error ≠ none) :
      ¬Obeys (calls ++ [stopped] ++ [late]) := by
  intro hobeys
  have heq : calls ++ [stopped] ++ [late] = calls ++ stopped :: [late] := by simp
  rcases h with hanswer | herror
  · exact absurd (hobeys.stops calls stopped [late] heq hanswer) (List.cons_ne_nil _ _)
  · exact absurd (hobeys.ends calls stopped [late] heq herror) (List.cons_ne_nil _ _)

/-! ## One attempt -/

def Item.taken (item : Item Content) : Option (Response Content) :=
  if item.error.isSome then none else item.response

def responseAt (items : Nat → Option (Item Content)) (j : Nat) : Option (Response Content) :=
  (items j).bind Item.taken

section

variable {consumer : Consumer} {stream : Bool} {items : Nat → Option (Item Content)}

theorem eq_of_responseAt {j : Nat} {response : Response Content}
    (h : responseAt items j = some response) : items j = some ⟨some response, none⟩ := by
  obtain ⟨⟨taken, error⟩, hitem, htaken⟩ := Option.bind_eq_some_iff.mp h
  cases error with
  | some failure => cases htaken
  | none =>
    rw [hitem]
    exact congrArg (fun taken => some (Item.mk taken none)) htaken

theorem generateOnce_response {fuel index : Nat} {emitted completed : Bool}
    {calls : List (Call Content)} {response : Response Content}
    (h : responseAt items index = some response) :
    generateOnce consumer stream items (fuel + 1) index emitted completed calls =
      if consumer calls.length then
        generateOnce consumer stream items fuel (index + 1) true
          (completed || response.turnComplete) (calls ++ [⟨some response, none, true⟩])
      else (.returned false (completed || response.turnComplete),
        calls ++ [⟨some response, none, false⟩]) := by
  rw [generateOnce, eq_of_responseAt h]
  cases hanswer : consumer calls.length <;> simp [yield, hanswer]

theorem generateOnce_failure {fuel index : Nat} {emitted completed : Bool}
    {calls : List (Call Content)} {item : Item Content} (hitem : items index = some item)
    (h : responseAt items index = none) :
    (stream = false ∧ emitted = false ∧
      generateOnce consumer stream items (fuel + 1) index emitted completed calls =
        (.returned true false, calls)) ∨
    ∃ e, generateOnce consumer stream items (fuel + 1) index emitted completed calls =
      (.returned false false, calls ++ [⟨none, some e, consumer calls.length⟩]) := by
  obtain ⟨response, error⟩ := item
  rw [generateOnce, hitem]
  cases error with
  | some failure =>
    dsimp only
    split
    case isTrue hretry =>
      simp only [Bool.and_eq_true, Bool.not_eq_true', decide_eq_true_eq] at hretry
      exact .inl ⟨hretry.1.2, hretry.2, rfl⟩
    case isFalse => exact .inr ⟨classifyError failure, rfl⟩
  | none =>
    cases response with
    | some response => simp [responseAt, hitem, Item.taken] at h
    | none => exact .inr ⟨errMalformedResponse, rfl⟩

theorem generateOnce_end {fuel index : Nat} {emitted completed : Bool}
    {calls : List (Call Content)} (hitem : items index = none) :
    generateOnce consumer stream items (fuel + 1) index emitted completed calls =
      (.returned false (completed || !stream), calls) := by
  rw [generateOnce, hitem]

theorem open_append {calls : List (Call Content)} (h : Open calls) (response : Response Content) :
    Open (calls ++ [⟨some response, none, true⟩]) := by
  intro call hcall
  rcases List.mem_append.mp hcall with hcall | hcall
  · exact h call hcall
  · rw [List.mem_singleton.mp hcall]
    exact ⟨rfl, rfl⟩

/-- What an attempt on open calls leaves: a retry has made no call, and any other end has made at
most one after which none may follow. -/
theorem generateOnce_cases {fuel index : Nat} {emitted completed : Bool}
    {calls : List (Call Content)} (hopen : Open calls) :
    (emitted = false ∧ generateOnce consumer stream items fuel index emitted completed calls =
      (.returned true false, calls)) ∨
    ∃ outcome made, generateOnce consumer stream items fuel index emitted completed calls =
      (outcome, made) ∧ (∀ flag, outcome ≠ .returned true flag) ∧ Obeys made := by
  induction fuel generalizing index emitted completed calls with
  | zero => exact .inr ⟨.running, calls, by rw [generateOnce], by simp, obeys_of_open hopen⟩
  | succ fuel ih =>
    cases hitem : items index with
    | none => exact .inr ⟨_, calls, generateOnce_end hitem, by simp, obeys_of_open hopen⟩
    | some item =>
      cases hresponse : responseAt items index with
      | none =>
        rcases generateOnce_failure hitem hresponse with ⟨-, hemitted, hretry⟩ | ⟨e, hfailed⟩
        · exact .inl ⟨hemitted, hretry⟩
        · exact .inr ⟨_, _, hfailed, by simp, obeys_append hopen _⟩
      | some response =>
        rw [generateOnce_response hresponse]
        split
        case isFalse => exact .inr ⟨_, _, rfl, by simp, obeys_append hopen _⟩
        case isTrue =>
          rcases @ih (index + 1) true (completed || response.turnComplete) _
              (open_append hopen response) with ⟨hemitted, -⟩ | hmade
          · cases hemitted
          · exact .inr hmade

end

/-! ## Requests that are not streamed -/

theorem obeys_attempts {consumer : Consumer} {delegate : Delegate Content} {fuel left attempt : Nat}
    {calls : List (Call Content)} (hopen : Open calls) :
    Obeys (attempts consumer false delegate fuel left attempt calls) := by
  induction left generalizing attempt with
  | zero => exact obeys_of_open hopen
  | succ left ih =>
    rw [attempts]
    rcases @generateOnce_cases _ consumer false (delegate attempt) fuel 0 false false _ hopen with
      ⟨-, hretry⟩ | ⟨outcome, made, hmade, houtcome, hobeys⟩
    · rw [hretry]
      dsimp only
      split
      case isTrue => exact ih
      case isFalse => exact obeys_append hopen _
    · rw [hmade]
      cases outcome with
      | running => exact hobeys
      | returned retry completed =>
        cases retry with
        | true => exact absurd rfl (houtcome completed)
        | false => exact hobeys

/-! ## Streams -/

/-- The first `k` items are responses, and the consumer has taken them. -/
def Taken (items : Nat → Option (Item Content)) (consumer : Consumer) (k : Nat) : Prop :=
  ∀ j < k, (responseAt items j).isSome = true ∧ consumer j = true

def completedBefore (items : Nat → Option (Item Content)) (k : Nat) : Bool :=
  (List.range k).any fun j => (responseAt items j).any Response.turnComplete

def takenCalls (items : Nat → Option (Item Content)) (k : Nat) : List (Call Content) :=
  (List.range k).filterMap fun j => (responseAt items j).map fun response =>
    ⟨some response, none, true⟩

/-- The stream has no error and no nil response up to where the consumer stops it, and the consumer
does not stop it before the turn is complete. -/
def StreamSafe (items : Nat → Option (Item Content)) (consumer : Consumer) : Prop :=
  ∀ k, Taken items consumer k → (items k).isSome = true →
    (responseAt items k).isSome = true ∧ (consumer k = false → completedBefore items (k + 1) = true)

section

variable {consumer : Consumer} {items : Nat → Option (Item Content)}

theorem open_takenCalls (k : Nat) : Open (takenCalls items k) := by
  intro call hcall
  obtain ⟨j, -, hj⟩ := List.mem_filterMap.mp hcall
  obtain ⟨response, -, rfl⟩ := Option.map_eq_some_iff.mp hj
  exact ⟨rfl, rfl⟩

theorem takenCalls_succ {k : Nat} {response : Response Content}
    (h : responseAt items k = some response) :
    takenCalls items (k + 1) = takenCalls items k ++ [⟨some response, none, true⟩] := by
  simp [takenCalls, List.range_succ, h]

theorem completedBefore_succ {k : Nat} {response : Response Content}
    (h : responseAt items k = some response) :
    completedBefore items (k + 1) = (completedBefore items k || response.turnComplete) := by
  simp [completedBefore, List.range_succ, h]

theorem Taken.pred {k : Nat} (h : Taken items consumer (k + 1)) : Taken items consumer k :=
  fun j hj => h j (Nat.lt_succ_of_lt hj)

theorem Taken.length {k : Nat} (h : Taken items consumer k) : (takenCalls items k).length = k := by
  induction k with
  | zero => rfl
  | succ k ih =>
    obtain ⟨response, hresponse⟩ := Option.isSome_iff_exists.mp (h k (Nat.lt_succ_self k)).1
    rw [takenCalls_succ hresponse, List.length_append, ih h.pred]
    rfl

theorem Taken.generateOnce {k : Nat} (h : Taken items consumer k) (stream : Bool) (fuel : Nat) :
    LLM.generateOnce consumer stream items (k + fuel) 0 false false [] =
      LLM.generateOnce consumer stream items fuel k (decide (0 < k)) (completedBefore items k)
        (takenCalls items k) := by
  induction k generalizing fuel with
  | zero => rw [Nat.zero_add]; rfl
  | succ k ih =>
    obtain ⟨hsome, hconsumer⟩ := h k (Nat.lt_succ_self k)
    obtain ⟨response, hresponse⟩ := Option.isSome_iff_exists.mp hsome
    rw [Nat.add_right_comm, Nat.add_assoc, ih h.pred, generateOnce_response hresponse,
      h.pred.length,
      if_pos hconsumer, takenCalls_succ hresponse, completedBefore_succ hresponse]
    simp

theorem exists_not_taken {fuel : Nat} (h : ¬Taken items consumer fuel) :
    ∃ k rest, fuel = k + (rest + 1) ∧ Taken items consumer k ∧
      ((responseAt items k).isSome = true → consumer k = false) := by
  induction fuel with
  | zero => exact absurd (fun _ hj => absurd hj (Nat.not_lt_zero _)) h
  | succ fuel ih =>
    by_cases htaken : Taken items consumer fuel
    · refine ⟨fuel, 0, rfl, htaken, fun hsome => ?_⟩
      refine Bool.eq_false_iff.mpr fun hconsumer => h fun j hj => ?_
      rcases Nat.lt_succ_iff_lt_or_eq.mp hj with hlt | rfl
      · exact htaken j hlt
      · exact ⟨hsome, hconsumer⟩
    · obtain ⟨k, rest, rfl, hk, hstop⟩ := ih htaken
      exact ⟨k, rest + 1, by omega, hk, hstop⟩

end

theorem obeys_stream_iff {consumer : Consumer} {delegate : Delegate Content} {left : Nat} :
    (∀ fuel, Obeys (attempts consumer true delegate fuel (left + 1) 0 [])) ↔
      StreamSafe (delegate 0) consumer := by
  constructor
  · intro hobeys k htaken hitem
    obtain ⟨item, hitem⟩ := Option.isSome_iff_exists.mp hitem
    have hone := hobeys (k + 1)
    rw [attempts, htaken.generateOnce] at hone
    cases hresponse : responseAt (delegate 0) k with
    | none =>
      rcases @generateOnce_failure _ consumer true _ 0 _ (decide (0 < k))
          (completedBefore (delegate 0) k) (takenCalls (delegate 0) k) _ hitem hresponse with
        ⟨hstream, -⟩ | ⟨e, hfailed⟩
      · cases hstream
      · rw [hfailed] at hone
        exact absurd hone (not_obeys_append (.inr (Option.some_ne_none e)))
    | some response =>
      refine ⟨rfl, fun hconsumer => ?_⟩
      rw [generateOnce_response hresponse, htaken.length, hconsumer, if_neg (by decide),
        ← completedBefore_succ hresponse] at hone
      by_contra hcompleted
      rw [Bool.not_eq_true] at hcompleted
      rw [hcompleted] at hone
      exact absurd hone (not_obeys_append (.inl rfl))
  · intro hsafe fuel
    rw [attempts]
    by_cases htaken : Taken (delegate 0) consumer fuel
    · have hrun := htaken.generateOnce true 0
      rw [Nat.add_zero] at hrun
      rw [hrun, generateOnce]
      exact obeys_of_open (open_takenCalls fuel)
    · obtain ⟨k, rest, rfl, hk, hstop⟩ := exists_not_taken htaken
      rw [hk.generateOnce]
      cases hitem : delegate 0 k with
      | none =>
        rw [generateOnce_end hitem]
        dsimp only
        split
        case isTrue => exact obeys_append (open_takenCalls k) _
        case isFalse => exact obeys_of_open (open_takenCalls k)
      | some item =>
        obtain ⟨hsome, hcompleted⟩ := hsafe k hk (by rw [hitem]; rfl)
        obtain ⟨response, hresponse⟩ := Option.isSome_iff_exists.mp hsome
        rw [generateOnce_response hresponse, hk.length, hstop hsome, if_neg (by decide),
          ← completedBefore_succ hresponse, hcompleted (hstop hsome)]
        exact obeys_append (open_takenCalls k) _

theorem obeys_single (consumer : Consumer) (e : Error) :
    Obeys (yield consumer ([] : List (Call Content)) none (some e)).2 :=
  obeys_append open_nil _

/-- `GenerateContent` obeys the protocol of an iterator exactly when what it streams is safe. -/
theorem iterator_protocol_iff (m : Option (BoundedModel Content)) (ctx : Option Unit)
    (request : Option Request) (stream : Bool) (consumer : Consumer) :
    (∀ fuel, Obeys (generateContent m ctx request stream consumer fuel)) ↔
      ∀ delegate maxAttempts, m = some ⟨some delegate, maxAttempts⟩ → ctx.isSome = true →
        request = some ⟨0⟩ → 0 < maxAttempts → stream = true →
          StreamSafe (delegate 0) consumer := by
  constructor
  · rintro hobeys delegate maxAttempts rfl hctx rfl hattempts rfl
    obtain ⟨_, rfl⟩ := Option.isSome_iff_exists.mp hctx
    obtain ⟨left, hleft⟩ := Nat.exists_eq_add_one_of_ne_zero
      (show maxAttempts.toNat ≠ 0 by omega)
    refine (@obeys_stream_iff _ consumer delegate left).mp fun fuel => ?_
    have hfuel := hobeys fuel
    rwa [generateContent, if_neg (by decide), hleft] at hfuel
  · intro hsafe fuel
    unfold generateContent
    split
    case h_2 => exact obeys_single consumer errInvalidOptions
    case h_1 delegate maxAttempts _ request =>
      split
      case isTrue => exact obeys_single consumer errToolsForbidden
      case isFalse htools =>
        cases stream with
        | false => exact obeys_attempts open_nil
        | true =>
          cases hleft : maxAttempts.toNat with
          | zero => exact obeys_of_open open_nil
          | succ left =>
            obtain ⟨tools⟩ := request
            obtain rfl : tools = 0 := by simpa using htools
            refine obeys_stream_iff.mpr (hsafe delegate maxAttempts rfl rfl rfl ?_ rfl) fuel
            omega

/-- A consumer that stops at the first part of an answer is called again, and a consumer that goes
on after an error gets a second one. -/
theorem stream_breaks_protocol :
    generateContent
      (some ⟨some fun _ j => if j = 0 then some ⟨some ⟨false, ()⟩, none⟩ else none, 1⟩)
        (some ()) (some ⟨0⟩) true (fun _ => false) 2 =
      [⟨some ⟨false, ()⟩, none, false⟩, ⟨none, some errMalformedResponse, false⟩] ∧
    generateContent (some ⟨some fun _ j => if j = 0 then some ⟨none, some ⟨errQuota, none, false⟩⟩
        else none, 1⟩) (some ()) (some ⟨0⟩) true (fun _ => true) 2 =
      ([⟨none, some errQuota, true⟩, ⟨none, some errMalformedResponse, true⟩] :
        List (Call Unit)) := by
  constructor <;> rfl

end

end PulseAgent.LLM
