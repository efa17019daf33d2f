import AgentAlgebra.Proofs.Base32
import AgentAlgebra.Proofs.CanonicalText
import AgentAlgebra.Witness
/-!
# What a witness id tells

Two failures have one id only if they have one key or their keys are a collision of the hash: the key
is read back from its canonical text, the text from its bytes, and the hash from its digits.
-/

namespace AgentAlgebra

/-- Two different messages that have one hash. -/
def Sha256.Collide (message message' : List UInt8) : Prop :=
  message ≠ message' ∧ hash message = hash message'

namespace WitnessKey

/-- The bytes that are hashed for a key: its canonical text. -/
def message (key : WitnessKey) : List UInt8 := key.toValue.canonicalText.toUTF8.data.toList

/-- The keys say the same, an absent context being `null`. -/
structure Same (key key' : WitnessKey) : Prop where
  failure : key.failure = key'.failure
  law : key.law = key'.law
  subject : key.subject = key'.subject
  context : key.context.getD .null = key'.context.getD .null

variable {key key' : WitnessKey}

theorem ofOption_eq_getD (value : Option Value) : Value.ofOption value = value.getD .null := by
  cases value <;> rfl

theorem ofOption_text_inj {text text' : Option String}
    (same : Value.ofOption (text.map .text) = Value.ofOption (text'.map .text)) : text = text' := by
  cases text with
  | none =>
    cases text' with
    | none => rfl
    | some s' => exact nomatch same
  | some s =>
    cases text' with
    | none => exact nomatch same
    | some s' =>
      obtain rfl : s = s' := Value.text.inj same
      rfl

theorem toValue_eq_toValue : key.toValue = key'.toValue ↔ Same key key' := by
  constructor
  · intro same
    have fields := Value.record_eq_record.mp same
    exact
      { failure := Value.text.inj (Option.some.inj (fields "class"))
        law := Value.text.inj (Option.some.inj (fields "law"))
        subject := ofOption_text_inj (Option.some.inj (fields "subject"))
        context := by
          rw [← ofOption_eq_getD, ← ofOption_eq_getD]
          exact Option.some.inj (fields "context") }
  · intro same
    have context : Value.ofOption key.context = Value.ofOption key'.context := by
      rw [ofOption_eq_getD, ofOption_eq_getD, same.context]
    unfold toValue
    rw [same.failure, same.law, same.subject, context]

theorem toUTF8_inj {s s' : String} (same : s.toUTF8.data.toList = s'.toUTF8.data.toList) :
    s = s' :=
  String.toByteArray_inj.mp (ByteArray.ext (Array.toList_inj.mp same))

theorem message_eq_message : key.message = key'.message ↔ Same key key' := by
  rw [← toValue_eq_toValue, ← Value.canonicalText_inj]
  constructor
  · exact toUTF8_inj
  · intro same
    unfold message
    rw [same]

/-- The id is the hash in other letters. -/
theorem id_eq_id : key.id = key'.id ↔ Sha256.hash key.message = Sha256.hash key'.message := by
  rw [← Base32Hex.encode_inj]
  constructor
  · intro same
    have digits := congrArg String.toList same
    unfold id at digits
    rw [String.toList_append, String.toList_append] at digits
    exact String.toList_inj.mp (List.append_cancel_left digits)
  · intro same
    exact congrArg ("w1_" ++ ·) same

theorem id_eq_iff_same : key.id = key'.id ↔ Same key key' ∨ Sha256.Collide key.message key'.message := by
  rw [id_eq_id, ← message_eq_message]
  constructor
  · intro same
    by_cases messages : key.message = key'.message
    · exact .inl messages
    · exact .inr ⟨messages, same⟩
  · intro same
    rcases same with messages | collision
    · rw [messages]
    · exact collision.2

/-- An id tells the sort of the failure, the law, the subject and the context that reproduces it,
unless the hash has one value for two canonical texts. Canonical texts are different for different
values, and are the same for objects whose fields were put in in another order: of the values put in
under a name, the last one counts. -/
theorem id_tells_key :
    (∀ key key' : WitnessKey, key.id = key'.id ↔
      (key.failure = key'.failure ∧ key.law = key'.law ∧ key.subject = key'.subject ∧
        key.context.getD .null = key'.context.getD .null) ∨
      Sha256.Collide key.message key'.message) ∧
    (∀ value value' : Value, value.canonicalText = value'.canonicalText ↔ value = value') ∧
    ∀ entries entries' : List (String × Value),
      (Value.record entries).canonicalText = (Value.record entries').canonicalText ↔
        ∀ name, entries.reverse.lookup name = entries'.reverse.lookup name := by
  refine ⟨fun key key' => ?_, fun value value' => Value.canonicalText_inj, fun entries entries' => ?_⟩
  · rw [id_eq_iff_same]
    refine or_congr_left ⟨fun same => ?_, fun ⟨failure, law, subject, context⟩ => ?_⟩
    · exact ⟨same.failure, same.law, same.subject, same.context⟩
    · exact ⟨failure, law, subject, context⟩
  · rw [Value.canonicalText_inj, Value.record_eq_record]

end WitnessKey

end AgentAlgebra
