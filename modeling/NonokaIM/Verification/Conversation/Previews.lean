import NonokaIM.Library.Utf8
import NonokaIM.Model.Conversation

/-! # Previews that cannot be stored

A preview is cut after 120 bytes, possibly within a character. -/

namespace NonokaIM

open DocumentStore Utf8 List

def dots : List UInt8 := "...".toUTF8.toList

theorem dots_eq : dots = [0x2e, 0x2e, 0x2e] := by decide +kernel

theorem valid_dots : Valid dots := ⟨['.', '.', '.'], by rw [dots_eq]; decide⟩

variable {bytes : List UInt8}

theorem cutsBetween_of_length_le {n : ℕ} (h : bytes.length ≤ n) : CutsBetween bytes n := by
  intro b hb
  rw [getElem?_eq_none h] at hb
  cases hb

theorem valid_truncatePreview_iff (h : Valid bytes) (n : ℕ) :
    Valid (truncatePreview bytes n) ↔ CutsBetween bytes n := by
  unfold truncatePreview
  split
  · next hshort => exact iff_of_true h (cutsBetween_of_length_le hshort)
  rw [← valid_take_iff h]
  change Valid (bytes.take n ++ dots) ↔ _
  refine ⟨fun hcut => valid_of_append hcut ?_, fun hcut => hcut.append valid_dots⟩
  rw [dots_eq]
  intro b hb
  obtain rfl := Option.some.inj hb
  decide

/-- The whole, or a proper start of it and three dots. -/
def IsPreviewOf (preview bytes : List UInt8) : Prop :=
  preview = bytes ∨ ∃ start, start <+: bytes ∧ start ≠ bytes ∧ preview = start ++ dots

theorem isPreviewOf_truncatePreview (bytes : List UInt8) (n : ℕ) :
    IsPreviewOf (truncatePreview bytes n) bytes := by
  unfold truncatePreview
  split
  · exact .inl rfl
  next hlong =>
  refine .inr ⟨bytes.take n, take_prefix n bytes, fun hall => hlong ?_, rfl⟩
  rw [← hall]
  exact length_take_le n bytes

def IsMedia (msg : UpstreamMessage) : Prop := msg.msgType = 2 ∨ msg.msgType = 3

/-- What a text column of Postgres takes: UTF-8 without U+0000. -/
def Storable (text : List UInt8) : Prop := Valid text ∧ 0 ∉ text

theorem storable_truncatePreview_iff (h : Valid bytes) (n : ℕ) :
    Storable (truncatePreview bytes n) ↔ CutsBetween bytes n ∧ 0 ∉ bytes.take n := by
  rw [Storable, valid_truncatePreview_iff h]
  refine and_congr_right fun _ => not_congr ?_
  unfold truncatePreview
  split
  · next hshort => rw [take_of_length_le hshort]
  · change 0 ∈ bytes.take n ++ dots ↔ _
    rw [mem_append, dots_eq]
    exact or_iff_left (by decide)

theorem storable_media {msg : UpstreamMessage} (h : IsMedia msg) :
    Storable (previewForMessage msg) := by
  unfold previewForMessage
  rcases h with himage | hfile
  · rw [if_pos himage]
    exact ⟨⟨"[图片]".toList, by decide +kernel⟩, by decide +kernel⟩
  · rw [if_neg (by omega), if_pos hfile]
    exact ⟨⟨"[文件]".toList, by decide +kernel⟩, by decide +kernel⟩

theorem preview_of_text {msg : UpstreamMessage} (h : ¬ IsMedia msg) :
    previewForMessage msg = truncatePreview msg.content 120 := by
  obtain ⟨himage, hfile⟩ := not_or.mp h
  rw [previewForMessage, if_neg himage, if_neg hfile]

open Classical in
/-- The statements of `UpsertConversation` on a database that refuses what a text column cannot
hold and is undisturbed otherwise. -/
noncomputable def encodingFault (preview : List UInt8) : UpsertFault :=
  if Storable preview then {}
  else ⟨.failed, .failed, "invalid byte sequence for encoding \"UTF8\""⟩

/-- The preview of a message can be stored, shows the content as it should and does not disturb
`UpsertConversation`, exactly if the message is an image or a file, or no character goes on after
its first 120 bytes and none of these is U+0000. -/
theorem storable_preview_iff (msg : UpstreamMessage) (hcontent : Valid msg.content) :
    (Storable (previewForMessage msg) ∧
      (¬ IsMedia msg → IsPreviewOf (previewForMessage msg) msg.content) ∧
      ∀ userID topicSeq peerUsername table, upsertConversation userID ⟨msg, topicSeq, peerUsername⟩
          (encodingFault (previewForMessage msg)) table =
        upsertConversation userID ⟨msg, topicSeq, peerUsername⟩ {} table) ↔
      IsMedia msg ∨ (CutsBetween msg.content 120 ∧ 0 ∉ msg.content.take 120) := by
  have hstorable : Storable (previewForMessage msg) ↔
      IsMedia msg ∨ (CutsBetween msg.content 120 ∧ 0 ∉ msg.content.take 120) := by
    by_cases hmedia : IsMedia msg
    · exact iff_of_true (storable_media hmedia) (.inl hmedia)
    · rw [preview_of_text hmedia, storable_truncatePreview_iff hcontent]
      exact (or_iff_right hmedia).symm
  refine ⟨fun h => hstorable.mp h.1, fun h => ⟨hstorable.mpr h, fun hmedia => ?_, ?_⟩⟩
  · rw [preview_of_text hmedia]
    exact isPreviewOf_truncatePreview msg.content 120
  · intro userID topicSeq peerUsername table
    rw [encodingFault, if_pos (hstorable.mpr h)]

def accented (n : ℕ) : UpstreamMessage where
  senderID := 1
  topic := "p2p_1_2"
  msgType := 1
  content := encode (replicate n 'a' ++ ['é'])
  clientMsgID := "c"
  timestamp := 0

theorem accented_content (n : ℕ) : (accented n).content = replicate n 0x61 ++ [0xC3, 0xA9] := by
  change encode (replicate n 'a' ++ ['é']) = _
  rw [encode_append, encode, flatMap_replicate,
    show String.utf8EncodeChar 'a' = [0x61] by decide, flatten_replicate_singleton]
  rfl

theorem storable_preview_accented :
    Valid (accented 120).content ∧ previewForMessage (accented 120) ≠ (accented 120).content ∧
      Storable (previewForMessage (accented 120)) := by
  have hcut : CutsBetween (accented 120).content 120 := by
    rw [accented_content]
    intro b hb
    obtain rfl : 0xC3 = b := Option.some.inj hb
    decide
  exact ⟨valid_encode _, by decide +kernel,
    ((storable_preview_iff (accented 120) (valid_encode _)).mpr
      (.inr ⟨hcut, by rw [accented_content]; decide⟩)).1⟩

/-- A cut through the `é` leaves a preview that is refused, and the conversation with it. -/
theorem preview_cut_through_character :
    Valid (accented 119).content ∧ ¬ Valid (previewForMessage (accented 119)) ∧
      (upsertConversation 2 ⟨accented 119, 7, none⟩
        (encodingFault (previewForMessage (accented 119))) .empty).status =
        .returned (.error
          "update recipient conversation: invalid byte sequence for encoding \"UTF8\"") := by
  have hcontent : Valid (accented 119).content := valid_encode _
  have hinvalid : ¬ Valid (previewForMessage (accented 119)) := by
    rw [preview_of_text (by unfold IsMedia; decide), valid_truncatePreview_iff hcontent,
      accented_content]
    exact fun hcut => absurd (hcut 0xA9 rfl) (by decide)
  refine ⟨hcontent, hinvalid, ?_⟩
  rw [encodingFault, if_neg fun hstorable => hinvalid hstorable.1]
  decide

end NonokaIM
