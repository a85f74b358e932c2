import PulseAgent.Go.Lines
import PulseAgent.Webhook.Standard

/-!
# Verifying signed webhooks

Two keyrings with a secret in common understand each other, and what is accepted was signed as it
was received: the signed content falls apart into ID, timestamp and body in one way only.
-/

namespace PulseAgent.Webhook

open Go

/-! ## What is accepted -/

theorem parseTimestamp_ok {value : Bytes} {timestamp : Int} :
    parseTimestamp value = .ok timestamp ↔ value ≠ [] ∧ value.all Decimal.isDigit = true ∧
      Decimal.value value < 2 ^ 63 ∧ timestamp = Decimal.value value := by
  unfold parseTimestamp
  split_ifs with h
  · simp only [Bool.and_eq_true, decide_eq_true_eq] at h
    simp only [Except.ok.injEq, h.1.1, h.1.2, h.2, ne_eq, not_false_eq_true, true_and]
    exact eq_comm
  · simp only [Bool.and_eq_true, decide_eq_true_eq, not_and] at h
    simp only [false_iff, not_and]
    exact fun hne hdigits hvalue => absurd hvalue (h ⟨hne, hdigits⟩)

theorem withinTolerance_iff {timestamp now tolerance : Int64} (htimestamp : 0 ≤ timestamp)
    (hnow : 0 ≤ now) : withinTolerance timestamp now tolerance = true ↔
      |timestamp.toInt - now.toInt| ≤ tolerance.toInt := by
  have ht := Int64.le_iff_toInt_le.mp htimestamp
  have hn := Int64.le_iff_toInt_le.mp hnow
  have ht' := timestamp.toInt_lt
  have hn' := now.toInt_lt
  have hzero : (0 : Int64).toInt = 0 := rfl
  have hsub {a b : Int64} (ha : 0 ≤ a.toInt) (hb : 0 ≤ b.toInt) (ha' : a.toInt < 2 ^ 63)
      (hb' : b.toInt < 2 ^ 63) : (a - b).toInt = a.toInt - b.toInt := by
    rw [Int64.toInt_sub, Int.bmod_eq_of_le (by omega) (by omega)]
  unfold withinTolerance
  split_ifs with hle
  · have hle' := Int64.le_iff_toInt_le.mp hle
    rw [decide_eq_true_iff, Int64.le_iff_toInt_le, hsub (by omega) (by omega) hn' ht', abs_le]
    omega
  · have hle' : ¬timestamp.toInt ≤ now.toInt := fun h => hle (Int64.le_iff_toInt_le.mpr h)
    rw [decide_eq_true_iff, Int64.le_iff_toInt_le, hsub (by omega) (by omega) ht' hn', abs_le]
    omega

theorem Keyring.verifyWithTolerance_ok {k : Keyring} {headers : Headers} {rawBody : Bytes}
    {now : Time} {tolerance : Duration} {u : Unit} :
    k.verifyWithTolerance headers rawBody now tolerance = .ok u ↔
      validMessageID headers.id = true ∧ 1000000000 ≤ tolerance ∧ 0 ≤ unix64 now ∧
      ∃ timestamp, parseTimestamp headers.timestamp = .ok timestamp ∧
        withinTolerance (Int64.ofInt timestamp) (unix64 now) (tolerance / 1000000000) = true ∧
        ∃ signatures, parseSignatures headers.signature = .ok signatures ∧
          ∃ secret ∈ k.secrets, Sha256.hmac secret
            (signingContent headers.id headers.timestamp rawBody) ∈ signatures := by
  unfold Keyring.verifyWithTolerance
  by_cases hid : validMessageID headers.id = true
  swap
  · simp [hid, throw, throwThe, MonadExceptOf.throw, bind, Except.bind]
  by_cases htolerance : tolerance < 1000000000
  · simp [hid, htolerance, Int64.not_le.mpr htolerance, throw, throwThe, MonadExceptOf.throw, bind,
      Except.bind]
  by_cases hnow : unix64 now < 0
  · simp [hid, hnow, Int64.not_le.mpr hnow, throw, throwThe, MonadExceptOf.throw, bind, Except.bind]
  have htolerance' := Int64.not_lt.mp htolerance
  have hnow' := Int64.not_lt.mp hnow
  cases htimestamp : parseTimestamp headers.timestamp with
  | error e =>
    simp [hid, htolerance, hnow, bind, Except.bind]
  | ok timestamp =>
    by_cases hwithin :
        withinTolerance (Int64.ofInt timestamp) (unix64 now) (tolerance / 1000000000) = true
    swap
    · simp [hid, htolerance, hnow, hwithin, throw, throwThe, MonadExceptOf.throw, bind, Except.bind]
    cases hsignatures : parseSignatures headers.signature with
    | error e =>
      simp [hid, htolerance, hnow, hwithin, bind, Except.bind]
    | ok signatures =>
      simp only [hid, htolerance, hnow, hwithin, htolerance', hnow', bind, Except.bind, pure,
        Except.pure, Bool.not_true, Bool.false_eq_true, if_false, Bool.or_self, decide_false,
        Except.ok.injEq, true_and, exists_eq_left', List.any_eq_true, List.contains_iff_mem]
      split_ifs with hmatch
      · simpa using hmatch
      · simpa [throw, throwThe, MonadExceptOf.throw] using hmatch

/-! ## The signature header -/

/-- The bytes of a signature: no separator of the header is among them. -/
def signatureByte (b : UInt8) : Bool := b == 118 || b == 49 || b == 44 || Base64.isChar b

theorem all_signatureByte (secret content : Bytes) :
    (signatureValue secret content).all signatureByte = true := by
  rw [signatureValue, List.all_append, List.all_cons, Bool.and_eq_true, Bool.and_eq_true]
  refine ⟨by decide, by decide, List.all_eq_true.mpr fun b hb => ?_⟩
  rw [signatureByte, List.all_eq_true.mp (Base64.all_isChar_encode _) b hb, Bool.or_true]

theorem parseSignature_signatureValue (secret content : Bytes) :
    parseSignature (signatureValue secret content) = .ok (Sha256.hmac secret content) := by
  have hencoded : (Base64.encode (Sha256.hmac secret content)).contains 44 = false := by
    rw [Bool.eq_false_iff]
    intro hmem
    have hchar := List.all_eq_true.mp (Base64.all_isChar_encode _)
      44 (List.contains_iff_mem.mp hmem)
    exact absurd hchar (by decide)
  have hne : Base64.encode (Sha256.hmac secret content) ≠ [] := by
    intro hnil
    have hdecode := Base64.decode_encode (Sha256.hmac secret content)
    rw [hnil] at hdecode
    have hlength := congrArg List.length (Option.some.inj hdecode)
    rw [Sha256.hmac_length] at hlength
    cases hlength
  have htake : (signatureValue secret content).takeWhile (· != 44) = signatureVersionV1 :=
    List.takeWhile_append_of_pos
      (List.all_eq_true.mp (by decide : signatureVersionV1.all (· != 44) = true))
  have hdrop : (signatureValue secret content).dropWhile (· != 44) =
      44 :: Base64.encode (Sha256.hmac secret content) := rfl
  simp only [parseSignature, htake, hdrop, hne, hencoded, Base64.decode_encode, Sha256.hmac_length]
  rfl

theorem splitOn_join {parts : List Bytes} (hne : parts ≠ [])
    (h : ∀ part ∈ parts, part.all signatureByte = true) :
    (Strings.join [32] parts).splitOn 32 = parts := by
  refine Strings.splitOn_join hne fun part hpart hmem => ?_
  exact absurd (List.all_eq_true.mp (h part hpart) 32 hmem) (by decide)

theorem mem_join {sep b : UInt8} {parts : List Bytes} (h : b ∈ Strings.join [sep] parts) :
    b = sep ∨ ∃ part ∈ parts, b ∈ part := by
  induction parts with
  | nil => cases h
  | cons part parts ih =>
    cases parts with
    | nil => exact .inr ⟨part, List.mem_singleton_self _, h⟩
    | cons next parts =>
      rw [Strings.join] at h
      · rcases List.mem_append.mp h with h | h
        · rcases List.mem_append.mp h with h | h
          · exact .inr ⟨part, List.mem_cons_self .., h⟩
          · exact .inl (List.mem_singleton.mp h)
        · rcases ih h with hsep | ⟨other, hother, hb⟩
          · exact .inl hsep
          · exact .inr ⟨other, List.mem_cons_of_mem _ hother, hb⟩
      · simp

theorem getLast_signatureValue {secret content rest : Bytes} :
    (rest ++ signatureValue secret content).getLast? ≠ some 32 := by
  intro hlast
  have hne : signatureValue secret content ≠ [] := List.cons_ne_nil _ _
  rw [List.getLast?_append_of_ne_nil _ hne] at hlast
  have hbyte := List.all_eq_true.mp (all_signatureByte secret content) 32
    (List.mem_of_getLast? hlast)
  exact absurd hbyte (by decide)

theorem parseSignatures_signed (k : Keyring) (content : Bytes) :
    parseSignatures (Strings.join [32]
      (k.secrets.map fun secret => signatureValue secret content)) =
      .ok (k.secrets.map fun secret => Sha256.hmac secret content) := by
  have hparts : ∀ part ∈ k.secrets.map (fun secret => signatureValue secret content),
      part.all signatureByte = true := by
    intro part hpart
    obtain ⟨secret, -, rfl⟩ := List.mem_map.mp hpart
    exact all_signatureByte secret content
  have hne : k.secrets.map (fun secret => signatureValue secret content) ≠ [] :=
    List.cons_ne_nil _ _
  have hsplit := splitOn_join hne hparts
  have hblank : (Strings.join [32] (k.secrets.map fun secret => signatureValue secret content)).any
      (fun b => b == 9 || b == 13 || b == 10) = false := by
    rw [Bool.eq_false_iff]
    intro hany
    obtain ⟨b, hb, hblank⟩ := List.any_eq_true.mp hany
    have hplain : b = 32 ∨ signatureByte b = true := by
      rcases mem_join hb with hsep | ⟨part, hpart, hb⟩
      · exact .inl hsep
      · exact .inr (List.all_eq_true.mp (hparts part hpart) b hb)
    simp only [Bool.or_eq_true, beq_iff_eq] at hblank
    rcases hblank with (rfl | rfl) | rfl <;> exact absurd hplain (by decide)
  have hends : (Strings.join [32] (k.secrets.map fun secret =>
        signatureValue secret content)).head? = some 118 ∧
      (Strings.join [32] (k.secrets.map fun secret =>
        signatureValue secret content)).getLast? ≠ some 32 := by
    obtain ⟨current, previous⟩ := k
    cases previous with
    | none => exact ⟨rfl, @getLast_signatureValue _ _ []⟩
    | some previous => exact ⟨rfl, getLast_signatureValue⟩
  have hmap : ∀ secrets : List Bytes,
      (secrets.map fun secret => signatureValue secret content).mapM parseSignature =
        .ok (secrets.map fun secret => Sha256.hmac secret content) := by
    intro secrets
    induction secrets with
    | nil => rfl
    | cons secret secrets ih =>
      rw [List.map_cons, List.mapM_cons, parseSignature_signatureValue, ih]
      rfl
  unfold parseSignatures
  rw [if_neg, hsplit, hmap]
  rintro (hnil | hhead | hlast | hany)
  · rw [hnil] at hends
    cases hends.1
  · exact absurd (hends.1.symm.trans hhead) (by decide)
  · exact hends.2 hlast
  · exact absurd (hblank.symm.trans hany) (by decide)

/-! ## Agreement of sender and receiver -/

theorem parseTimestamp_formatInt {seconds : Int} (h : 0 ≤ seconds) (hlt : seconds < 2 ^ 63) :
    parseTimestamp (Decimal.formatInt seconds) = .ok seconds := by
  rw [Decimal.formatInt, if_neg (by omega), parseTimestamp_ok, Decimal.value_formatNat]
  refine ⟨Decimal.formatNat_ne_nil _, List.all_eq_true.mpr (Decimal.formatNat_isDigit _), ?_, ?_⟩
  · omega
  · omega

theorem toInt_ofInt {seconds : Int} (h : 0 ≤ seconds) (hlt : seconds < 2 ^ 63) :
    (Int64.ofInt seconds).toInt = seconds :=
  Int64.toInt_ofInt_of_le (by omega) (by omega)

theorem nonneg_ofInt {seconds : Int} (h : 0 ≤ seconds) (hlt : seconds < 2 ^ 63) :
    0 ≤ Int64.ofInt seconds := by
  rw [Int64.le_iff_toInt_le, toInt_ofInt h hlt]
  exact h

theorem toInt_seconds {tolerance : Duration} (h : 1000000000 ≤ tolerance) :
    (tolerance / 1000000000).toInt = tolerance.toInt / 1000000000 := by
  have hle := Int64.le_iff_toInt_le.mp h
  change 1000000000 ≤ tolerance.toInt at hle
  rw [Int64.toInt_div_of_ne_right _ _ (by decide)]
  exact Int.tdiv_eq_ediv_of_nonneg (by omega)

theorem close_of_within {value : Bytes} {timestamp : Int} {now : Time} {tolerance : Duration}
    (htimestamp : parseTimestamp value = .ok timestamp) (htolerance : 1000000000 ≤ tolerance)
    (hnow : 0 ≤ unix64 now)
    (h : withinTolerance (Int64.ofInt timestamp) (unix64 now) (tolerance / 1000000000) = true) :
    |timestamp - (unix64 now).toInt| ≤ tolerance.toInt / 1000000000 := by
  obtain ⟨-, -, hvalue, hseconds⟩ := parseTimestamp_ok.mp htimestamp
  have hrange : 0 ≤ timestamp ∧ timestamp < 2 ^ 63 := by omega
  rwa [withinTolerance_iff (nonneg_ofInt hrange.1 hrange.2) hnow,
    toInt_ofInt hrange.1 hrange.2, toInt_seconds htolerance] at h

def Keyring.signed (k : Keyring) (id : Bytes) (timestamp : Time) (rawBody : Bytes) : Headers where
  id := id
  timestamp := Decimal.formatInt timestamp.unix
  signature := Strings.join [32] (k.secrets.map fun secret =>
    signatureValue secret (signingContent id (Decimal.formatInt timestamp.unix) rawBody))

theorem Keyring.sign_eq (k : Keyring) {id : Bytes} (hid : validMessageID id = true)
    {timestamp : Time}
    (htimestamp : 0 ≤ timestamp.unix) (rawBody : Bytes) :
    k.sign id timestamp rawBody = .ok (k.signed id timestamp rawBody) := by
  rw [Keyring.sign, if_pos]
  · rfl
  · rw [hid, decide_eq_true htimestamp]
    rfl

theorem verify_signed {K L : Keyring} (hshared : ∃ secret ∈ K.secrets, secret ∈ L.secrets)
    {id : Bytes} (hid : validMessageID id = true) (body : Bytes) {t n : Time}
    (ht : 0 ≤ t.unix ∧ t.unix < 2 ^ 63) (hn : 0 ≤ n.unix ∧ n.unix < 2 ^ 63) {tolerance : Duration}
    (htolerance : 1000000000 ≤ tolerance)
    (hclose : |t.unix - n.unix| ≤ tolerance.toInt / 1000000000) :
    L.verifyWithTolerance (K.signed id t body) body n tolerance = .ok () := by
  refine Keyring.verifyWithTolerance_ok.mpr ⟨hid, htolerance, nonneg_ofInt hn.1 hn.2, t.unix,
    parseTimestamp_formatInt ht.1 ht.2, ?_, _, parseSignatures_signed K _, ?_⟩
  · rw [unix64, withinTolerance_iff (nonneg_ofInt ht.1 ht.2) (nonneg_ofInt hn.1 hn.2),
      toInt_ofInt ht.1 ht.2, toInt_ofInt hn.1 hn.2, toInt_seconds htolerance]
    exact hclose
  · obtain ⟨secret, hsender, hreceiver⟩ := hshared
    exact ⟨secret, hreceiver, List.mem_map_of_mem hsender⟩

/-- Keyrings with a secret in common understand each other, within the tolerance. -/
theorem verify_across_rotation {K L : Keyring}
    (hshared : ∃ secret ∈ K.secrets, secret ∈ L.secrets) {id : Bytes}
    (hid : validMessageID id = true) (body : Bytes) {t n : Time} (ht : 0 ≤ t.unix ∧ t.unix < 2 ^ 63)
    (hn : 0 ≤ n.unix ∧ n.unix < 2 ^ 63) {tolerance : Duration} (htolerance : 1000000000 ≤ tolerance)
    (hclose : |t.unix - n.unix| ≤ tolerance.toInt / 1000000000) :
    ∃ headers, K.sign id t body = .ok headers ∧
      L.verifyWithTolerance headers body n tolerance = .ok () :=
  ⟨_, K.sign_eq hid ht.1 body, verify_signed hshared hid body ht hn htolerance hclose⟩

def exampleSecret (b : UInt8) : Secret := ⟨List.replicate 32 b, by simp; decide⟩

/-- The sender has gone on to a new secret, and the receiver has not yet. -/
theorem verify_across_rotation_example : ∃ headers : Headers,
    (⟨exampleSecret 1, some (exampleSecret 0)⟩ : Keyring).sign (lit "msg_1")
      62135596800000000000 [] =
      .ok headers ∧
    (⟨exampleSecret 0, none⟩ : Keyring).verifyWithTolerance headers [] 62135597100000000000
      300000000000 = .ok () := by
  refine verify_across_rotation ⟨(exampleSecret 0).val, ?_, List.mem_cons_self ..⟩
    (by decide +kernel) [] ⟨by decide, by decide⟩ ⟨by decide, by decide⟩ (by decide) (by decide)
  exact List.mem_cons_of_mem _ (List.mem_cons_self ..)

/-! ## What an accepted webhook says -/

/-- The content determines the parts it was put together from. -/
theorem signingContent_injective {id id' timestamp timestamp' body body' : Bytes}
    (hid : validMessageID id = true) (hid' : validMessageID id' = true)
    (htimestamp : timestamp.all Decimal.isDigit = true)
    (htimestamp' : timestamp'.all Decimal.isDigit = true)
    (h : signingContent id timestamp body = signingContent id' timestamp' body') :
    id = id' ∧ timestamp = timestamp' ∧ body = body' := by
  have hdot {value : Bytes} (hvalue : validMessageID value = true) : (46 : UInt8) ∉ value := by
    simp only [validMessageID, Bool.and_eq_true, Bool.not_eq_true', decide_eq_true_eq] at hvalue
    intro hmem
    exact absurd (hvalue.1.2.symm.trans (List.contains_iff_mem.mpr hmem)) (by decide)
  have hdigit {value : Bytes} (hvalue : value.all Decimal.isDigit = true) : (46 : UInt8) ∉ value :=
    fun hmem => absurd (List.all_eq_true.mp hvalue 46 hmem) (by decide)
  simp only [signingContent, List.append_assoc, List.cons_append] at h
  obtain ⟨rfl, hrest⟩ := Strings.append_sep_inj (hdot hid) (hdot hid') h
  obtain ⟨rfl, rfl⟩ := Strings.append_sep_inj (hdigit htimestamp) (hdigit htimestamp') hrest
  exact ⟨rfl, rfl, rfl⟩

/-- HMAC tells the two messages apart, whichever secrets of the keyring are used. -/
def Keyring.Separates (k : Keyring) (message message' : Bytes) : Prop :=
  ∀ secret ∈ k.secrets, ∀ secret' ∈ k.secrets,
    Sha256.hmac secret message = Sha256.hmac secret' message' → message = message'

theorem eq_of_shared_signature {k : Keyring} {headers : Headers} (headers' : Headers)
    {body body' : Bytes} {now now' : Time} {tolerance tolerance' : Duration}
    {secret signature : Bytes}
    (h : k.verifyWithTolerance headers body now tolerance = .ok ()) (hsecret : secret ∈ k.secrets)
    (hsignature : Sha256.hmac secret (signingContent headers.id headers.timestamp body) = signature)
    (hseparates : k.Separates (signingContent headers.id headers.timestamp body)
      (signingContent headers'.id headers'.timestamp body'))
    (halone : parseSignatures headers'.signature = .ok [signature])
    (h' : k.verifyWithTolerance headers' body' now' tolerance' = .ok ()) :
    headers'.id = headers.id ∧ headers'.timestamp = headers.timestamp ∧ body' = body := by
  obtain ⟨hid, -, -, timestamp, htimestamp, -⟩ := Keyring.verifyWithTolerance_ok.mp h
  obtain ⟨hid', -, -, timestamp', htimestamp', -, signatures, hsignatures, secret', hsecret',
    hmem⟩ := Keyring.verifyWithTolerance_ok.mp h'
  rw [Except.ok.inj (hsignatures.symm.trans halone), List.mem_singleton, ← hsignature] at hmem
  have hcontent := hseparates secret hsecret secret' hsecret' hmem.symm
  exact signingContent_injective hid' hid (parseTimestamp_ok.mp htimestamp').2.1
    (parseTimestamp_ok.mp htimestamp).2.1 hcontent.symm

/-- An accepted webhook was signed as it was received, and recently. -/
theorem accepted_as_signed {k : Keyring} {headers : Headers} {body : Bytes} {now : Time}
    {tolerance : Duration} (h : k.verifyWithTolerance headers body now tolerance = .ok ()) :
    (∃ signatures, parseSignatures headers.signature = .ok signatures ∧
      ∃ signature ∈ signatures, ∃ secret ∈ k.secrets,
        Sha256.hmac secret (signingContent headers.id headers.timestamp body) = signature ∧
        -- no other message is accepted with this signature alone
        ∀ (headers' : Headers) (body' : Bytes) (now' : Time) (tolerance' : Duration),
          k.Separates (signingContent headers.id headers.timestamp body)
            (signingContent headers'.id headers'.timestamp body') →
          parseSignatures headers'.signature = .ok [signature] →
          k.verifyWithTolerance headers' body' now' tolerance' = .ok () →
          headers'.id = headers.id ∧ headers'.timestamp = headers.timestamp ∧ body' = body) ∧
    (∀ id timestamp body', validMessageID id = true → timestamp.all Decimal.isDigit = true →
      signingContent id timestamp body' = signingContent headers.id headers.timestamp body →
      id = headers.id ∧ timestamp = headers.timestamp ∧ body' = body) ∧
    (∀ signature, parseSignatures headers.signature = .ok [signature] →
      ∀ id timestamp body', ¬(id = headers.id ∧ timestamp = headers.timestamp ∧ body' = body) →
        k.Separates (signingContent headers.id headers.timestamp body)
          (signingContent id timestamp body') →
        ∀ now' tolerance', k.verifyWithTolerance ⟨id, timestamp, headers.signature⟩ body' now'
          tolerance' ≠ .ok ()) ∧
    ∃ timestamp : Int, parseTimestamp headers.timestamp = .ok timestamp ∧
      |timestamp - (unix64 now).toInt| ≤ tolerance.toInt / 1000000000 := by
  obtain ⟨hid, htolerance, hnow, timestamp, htimestamp, hwithin, signatures, hsignatures, secret,
    hsecret, hmem⟩ := Keyring.verifyWithTolerance_ok.mp h
  have hdigits := (parseTimestamp_ok.mp htimestamp).2.1
  refine ⟨⟨signatures, hsignatures, _, hmem, secret, hsecret, rfl, ?_⟩, ?_, ?_,
    timestamp, htimestamp, ?_⟩
  · intro headers' body' now' tolerance' hseparates halone h'
    exact eq_of_shared_signature headers' h hsecret rfl hseparates halone h'
  · intro id' timestamp' body' hid' hdigits' hcontent
    exact signingContent_injective hid' hid hdigits' hdigits hcontent
  · intro signature halone id' timestamp' body' hother hseparates now' tolerance' h'
    rw [Except.ok.inj (hsignatures.symm.trans halone), List.mem_singleton] at hmem
    exact hother (eq_of_shared_signature ⟨id', timestamp', headers.signature⟩ h hsecret hmem
      hseparates halone h')
  · exact close_of_within htimestamp htolerance hnow hwithin

/-- The receiver has gone on to a new secret, and the sender has not yet. -/
theorem accepted_as_signed_rotated :
    let headers := (⟨exampleSecret 0, none⟩ : Keyring).signed (lit "msg_1") 62135596800000000000
      (lit "a")
    ∃ signatures, parseSignatures headers.signature = .ok signatures ∧ ∃ signature ∈ signatures,
      ∃ secret ∈ (⟨exampleSecret 1, some (exampleSecret 0)⟩ : Keyring).secrets,
        Sha256.hmac secret (signingContent headers.id headers.timestamp (lit "a")) = signature := by
  intro headers
  have haccepted : (⟨exampleSecret 1, some (exampleSecret 0)⟩ : Keyring).verifyWithTolerance headers
      (lit "a") 62135597100000000000 300000000000 = .ok () :=
    verify_signed ⟨(exampleSecret 0).val, List.mem_cons_self ..,
        List.mem_cons_of_mem _ (List.mem_cons_self ..)⟩
      (by decide +kernel) _ ⟨by decide, by decide⟩ ⟨by decide, by decide⟩ (by decide) (by decide)
  obtain ⟨signatures, hparsed, signature, hmem, secret, hsecret, hsigned, -⟩ :=
    (accepted_as_signed haccepted).1
  exact ⟨signatures, hparsed, signature, hmem, secret, hsecret, hsigned⟩

/-! ## The default tolerance -/

theorem Keyring.close_of_verify {k : Keyring} {headers : Headers} {body : Bytes} {now : Time}
    (h : k.verify headers body now = .ok ()) :
    ∃ timestamp, parseTimestamp headers.timestamp = .ok timestamp ∧
      |timestamp - (unix64 now).toInt| ≤ 300 := by
  obtain ⟨-, htolerance, hnow, timestamp, htimestamp, hwithin, -⟩ :=
    Keyring.verifyWithTolerance_ok.mp h
  exact ⟨timestamp, htimestamp, close_of_within htimestamp htolerance hnow hwithin⟩

theorem Keyring.verify_signed_self (k : Keyring) {id : Bytes} (hid : validMessageID id = true)
    (body : Bytes) {t n : Time} (ht : 0 ≤ t.unix ∧ t.unix < 2 ^ 63)
    (hn : 0 ≤ n.unix ∧ n.unix < 2 ^ 63) (hclose : |t.unix - n.unix| ≤ 300) :
    k.verify (k.signed id t body) body n = .ok () :=
  verify_signed ⟨k.current.val, List.mem_cons_self, List.mem_cons_self⟩ hid body ht hn (by decide)
    hclose

end PulseAgent.Webhook
