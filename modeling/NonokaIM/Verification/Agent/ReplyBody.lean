import NonokaIM.Library.Utf8
import NonokaIM.Model.ReplyBody

/-! # The reply on its way to the server

The topic and the client id come through if JSON knows how `%q` writes them; the text is taken for
base 64. -/

namespace NonokaIM

open FlatJson QuotedText List HTTPSender Option

variable {isPrint : Char → Bool}

/-! ## The object -/

theorem body_pieces {a b c d topicName clientName typeName contentName : List Char}
    (ha : a = '{' :: '"' :: (topicName ++ ['"', ':']))
    (hb : b = ',' :: '"' :: (clientName ++ ['"', ':']))
    (hc : c = ',' :: (fieldText typeName ['0'] ++ ',' :: '"' :: (contentName ++ ['"', ':'])))
    (hd : d = ['}']) (topic client content : List Char) :
    a ++ topic ++ b ++ client ++ c ++ content ++ d =
      '{' :: (fieldText topicName topic ++ ',' :: (fieldText clientName client ++ ',' ::
        (fieldText typeName ['0'] ++ ',' :: (fieldText contentName content ++ ['}'])))) := by
  subst ha hb hc hd
  simp only [fieldText, append_assoc, cons_append, nil_append]

theorem HTTPSender.body_eq (topic content clientID : String) :
    body isPrint topic content clientID =
      '{' :: (fieldText "topic".toList (quote isPrint topic.toList) ++ ',' ::
        (fieldText "client_msg_id".toList (quote isPrint clientID.toList) ++ ',' ::
          (fieldText "msg_type".toList ['0'] ++ ',' ::
            (fieldText "content".toList (quote isPrint content.toList) ++ ['}'])))) :=
  body_pieces (by decide) (by decide) (by decide) (by decide) _ _ _

def bodyFields (topic content clientID : String) : List Field :=
  [("topic".toList, .text topic.toList), ("client_msg_id".toList, .text clientID.toList),
    ("msg_type".toList, .int 0), ("content".toList, .text content.toList)]

/-- All characters of a text are written in a way that JSON knows. -/
def ReadableText (isPrint : Char → Bool) (text : String) : Prop :=
  AllReadable isPrint text.toList
  deriving Decidable

theorem readField_zero {name : List Char} (h : name.flatMap escape = name) (rest : List Char) :
    readField (fieldText name ['0'] ++ ',' :: rest) = some ((name, .int 0), ',' :: rest) := by
  have hcomma : NoDigit (',' :: rest) := by simp [NoDigit]
  have hvalue : readValue (['0'] ++ ',' :: rest) = some (.int 0, ',' :: rest) :=
    readValue_printValue (.int 0) hcomma
  rw [readField_fieldText h, hvalue, map_some]

theorem readObject_body (topic content clientID : String) :
    readObject (body isPrint topic content clientID) =
      if ReadableText isPrint topic ∧ ReadableText isPrint clientID ∧
          ReadableText isPrint content then
        some (bodyFields topic content clientID)
      else none := by
  rw [body_eq, bodyFields]
  have htopic : "topic".toList.flatMap escape = "topic".toList := by decide
  have hclient : "client_msg_id".toList.flatMap escape = "client_msg_id".toList := by
    decide
  have htype : "msg_type".toList.flatMap escape = "msg_type".toList := by decide
  have hcontent : "content".toList.flatMap escape = "content".toList := by decide
  generalize "topic".toList = topicName at htopic ⊢
  generalize "client_msg_id".toList = clientName at hclient ⊢
  generalize "msg_type".toList = typeName at htype ⊢
  generalize "content".toList = contentName at hcontent ⊢
  rw [readObject, if_neg (by simp [fieldText]), List.head?_cons, if_pos rfl, tail_cons]
  obtain ⟨fuel, hfuel⟩ : ∃ fuel, ('{' :: (fieldText topicName (quote isPrint topic.toList) ++ ',' ::
        (fieldText clientName (quote isPrint clientID.toList) ++ ',' ::
          (fieldText typeName ['0'] ++ ',' ::
            (fieldText contentName (quote isPrint content.toList) ++ ['}']))))).length =
      fuel + 4 := by
    simp only [fieldText, length_append, length_cons]
    exact ⟨_, rfl⟩
  rw [hfuel]
  by_cases h₁ : ReadableText isPrint topic
  · rw [readFields_cons ((readField_quote htopic _ _).trans (if_pos h₁))]
    by_cases h₂ : ReadableText isPrint clientID
    · rw [readFields_cons ((readField_quote hclient _ _).trans (if_pos h₂)),
        readFields_cons (readField_zero htype _)]
      by_cases h₃ : ReadableText isPrint content
      · rw [readFields_last ((readField_quote hcontent _ _).trans (if_pos h₃)), if_pos ⟨h₁, h₂, h₃⟩]
        rfl
      · rw [readFields_none ((readField_quote hcontent _ _).trans (if_neg h₃)),
          if_neg fun h => h₃ h.2.2]
        rfl
    · rw [readFields_none ((readField_quote hclient _ _).trans (if_neg h₂)),
        if_neg fun h => h₂ h.2.1]
      rfl
  · rw [readFields_none ((readField_quote htopic _ _).trans (if_neg h₁)), if_neg fun h => h₁ h.1]

theorem foldlM_bodyFields (req : SendMessageRequest) (topic content clientID : String) :
    (bodyFields topic content clientID).foldlM setField req =
      (unmarshalBytes content.toList).map fun bytes =>
        { req with topic, msgType := 0, content := bytes, clientMsgID := clientID } := by
  have htopic : requestField "topic".toList = some .topic := by decide
  have hclient : requestField "client_msg_id".toList = some .clientMsgID := by decide
  have htype : requestField "msg_type".toList = some .msgType := by decide
  have hcontent : requestField "content".toList = some .content := by decide
  unfold bodyFields
  generalize "topic".toList = topicName at htopic ⊢
  generalize "client_msg_id".toList = clientName at hclient ⊢
  generalize "msg_type".toList = typeName at htype ⊢
  generalize "content".toList = contentName at hcontent ⊢
  simp [setField, htopic, hclient, htype, hcontent]

theorem unmarshal_body (topic content clientID : String) :
    unmarshalSendMessageRequest (body isPrint topic content clientID) =
      if ReadableText isPrint topic ∧ ReadableText isPrint clientID ∧
          ReadableText isPrint content then
        (unmarshalBytes content.toList).map fun bytes =>
          { topic, content := bytes, clientMsgID := clientID }
      else none := by
  rw [unmarshalSendMessageRequest, readObject_body]
  split
  · rw [bind_some, foldlM_bodyFields]
  · rfl

theorem clientMsgID_of_unmarshal_body {topic content clientID : String} {req : SendMessageRequest}
    (h : unmarshalSendMessageRequest (body isPrint topic content clientID) = some req) :
    req.clientMsgID = clientID := by
  rw [unmarshal_body] at h
  split at h
  · obtain ⟨bytes, -, rfl⟩ := map_eq_some_iff.mp h
    rfl
  · cases h

/-! ## The content -/

theorem length_base64Digits_le (isURL : Bool) (text : List Char) :
    (base64Digits isURL text).length ≤ text.length := by
  rw [base64Digits, length_map]
  exact length_filter_le _ _

theorem length_unmarshalBytes_le {text : List Char} {bytes : List UInt8}
    (h : unmarshalBytes text = some bytes) : 4 * bytes.length ≤ 3 * text.length := by
  unfold unmarshalBytes at h
  dsimp only at h
  generalize (text.any fun c => c = '-' || c = '_') = isURL at h
  have hdigits := length_base64Digits_le isURL text
  split at h
  · cases h
  split at h
  · have hbytes := Base64.length_decode_le h
    have hcount : (base64Digits isURL text).countP (· != '=') ≤ _ := countP_le_length
    omega
  · have hbytes := Base64.length_decodeRaw_le h
    omega

/-- The request that the server decodes has the topic, the client id and the text that were given
exactly if the text is empty and JSON knows how the topic and the client id are written. -/
theorem reply_round_trip_iff (isPrint : Char → Bool) (topic content clientID : String) :
    (∃ req, unmarshalSendMessageRequest (body isPrint topic content clientID) =
        some req ∧ req.topic = topic ∧ req.clientMsgID = clientID ∧
        req.content = content.toUTF8.data.toList) ↔
      content = "" ∧ ReadableText isPrint topic ∧ ReadableText isPrint clientID := by
  rw [unmarshal_body, Utf8.toUTF8_eq_encode]
  constructor
  · rintro ⟨req, hreq, -, -, hcontent⟩
    split at hreq
    · next hreadable =>
      obtain ⟨bytes, hbytes, rfl⟩ := map_eq_some_iff.mp hreq
      obtain rfl : bytes = Utf8.encode content.toList := hcontent
      have hle := length_unmarshalBytes_le hbytes
      have hlong := Utf8.length_le_encode content.toList
      have hzero : content.toList.length = 0 := by omega
      have hempty : content.toList = [] := length_eq_zero_iff.mp hzero
      exact ⟨String.toList_eq_nil_iff.mp hempty, hreadable.1, hreadable.2.1⟩
    · cases hreq
  · rintro ⟨rfl, htopic, hclient⟩
    rw [if_pos ⟨htopic, hclient, by simp [ReadableText, AllReadable]⟩]
    exact ⟨_, rfl, rfl, rfl, rfl⟩

/-- A reply is rejected: five characters are no base 64. -/
theorem reply_rejected :
    unmarshalSendMessageRequest (body (fun c => 32 ≤ c.toNat ∧ c.toNat ≠ 0x7f)
      "p2p_1_2" "hello" "agent-2cf24dba5fb0a30e26e83b2ac5b9e29e") = none := by
  decide

end NonokaIM
