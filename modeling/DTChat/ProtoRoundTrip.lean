import DTChat.ProtoMessages

namespace DTChat.ProtoMessages
open PrefixReader ProtoWire ProtoRecord Utf8Text

theorem int64_kept (x : Int64) : Int64.ofNat x.toUInt64.toNat = x := by
  apply Int64.toBitVec_inj.mp
  simp

theorem int32_kept (x : Int32) : Int32.ofNat x.toInt64.toUInt64.toNat = x := by
  apply Int32.toBitVec_inj.mp
  change BitVec.ofNat 32 (x.toBitVec.signExtend 64).toNat = x.toBitVec
  ext i inside
  rw [BitVec.ofNat_toNat,BitVec.getElem_setWidth,BitVec.getLsbD_signExtend]
  simp [inside,show i < 64 by omega]

theorem bool_kept (b : Bool) : (b.toNat != 0) = b := by cases b <;> rfl

theorem TextMessage.merge_encode (m : TextMessage) (fits : m.encode.length < 2^64) :
    reader.merge default m.encode = some m := by
  obtain ⟨content,reply⟩ := m
  simp only [encode,List.length_append] at fits ⊢
  have first := defaultBytes_fits 1 content.bytes
  rw [reader,merge_defaultString TextMessage.default (fun value => ⟨value,none⟩) (by decide) (by decide) content (by omega)
    (fun _ => rfl) rfl]
  cases reply with
  | none => rfl
  | some reply =>
    have second := bytesField_fits 2 reply.bytes
    simp only [optionalString] at fits ⊢
    rw [← List.append_nil (bytesField 2 reply.bytes),merge_stringField (fun value => ⟨content,some value⟩)
      (by decide) (by decide) reply (by omega) (fun _ => rfl)]
    rfl

theorem FileTransfer.merge_encode (m : FileTransfer) (fits : m.encode.length < 2^64) :
    reader.merge default m.encode = some m := by
  obtain ⟨filename,mimeType,fileSize,chunkData,chunkIndex,totalChunks,fileHash⟩ := m
  simp only [encode,List.length_append] at fits ⊢
  have one := defaultBytes_fits 1 filename.bytes
  have two := defaultBytes_fits 2 mimeType.bytes
  have four := defaultBytes_fits 4 chunkData
  have seven := defaultBytes_fits 7 fileHash.bytes
  have index := chunkIndex.toNat_lt
  have total := totalChunks.toNat_lt
  rw [reader,
    merge_defaultString FileTransfer.default (fun value => FileTransfer.mk value .empty 0 [] 0 0 .empty) (by decide) (by decide)
      filename (by omega) (fun _ => rfl) rfl,
    merge_defaultString (FileTransfer.mk filename .empty 0 [] 0 0 .empty) (fun value => FileTransfer.mk filename value 0 [] 0 0 .empty) (by decide) (by decide)
      mimeType (by omega) (fun _ => rfl) rfl,
    merge_defaultVarint (FileTransfer.mk filename mimeType 0 [] 0 0 .empty) (fun value => FileTransfer.mk filename mimeType (UInt64.ofNat value) [] 0 0 .empty) (by decide) (by decide)
      fileSize.toNat_lt (fun _ => rfl) rfl,UInt64.ofNat_toNat,
    merge_defaultBytes (FileTransfer.mk filename mimeType fileSize [] 0 0 .empty) (fun value => FileTransfer.mk filename mimeType fileSize value 0 0 .empty) (by decide) (by decide)
      (by omega) (fun _ => rfl) rfl,
    merge_defaultVarint (FileTransfer.mk filename mimeType fileSize chunkData 0 0 .empty) (fun value => FileTransfer.mk filename mimeType fileSize chunkData (UInt32.ofNat value) 0 .empty) (by decide)
      (by decide) (by omega) (fun _ => rfl) rfl,UInt32.ofNat_toNat,
    merge_defaultVarint (FileTransfer.mk filename mimeType fileSize chunkData chunkIndex 0 .empty) (fun value => FileTransfer.mk filename mimeType fileSize chunkData chunkIndex (UInt32.ofNat value) .empty)
      (by decide) (by decide) (by omega) (fun _ => rfl) rfl,UInt32.ofNat_toNat,
    ← List.append_nil (defaultBytes 7 fileHash.bytes),
    merge_defaultString (FileTransfer.mk filename mimeType fileSize chunkData chunkIndex totalChunks .empty) (fun value => FileTransfer.mk filename mimeType fileSize chunkData chunkIndex totalChunks value)
      (by decide) (by decide) fileHash (by omega) (fun _ => rfl) rfl]
  rfl

theorem PresenceUpdate.merge_encode (m : PresenceUpdate) : reader.merge default m.encode = some m := by
  obtain ⟨status⟩ := m
  simp only [encode]
  rw [reader,← List.append_nil (defaultVarint 1 _),merge_defaultVarint PresenceUpdate.default (fun value => ⟨Int32.ofNat value⟩) (by decide)
    (by decide) (UInt64.toNat_lt _) (fun _ => rfl) rfl,int32_kept]
  rfl

theorem DeliveryStatus.merge_encode (m : DeliveryStatus) (fits : m.encode.length < 2^64) :
    reader.merge default m.encode = some m := by
  obtain ⟨messageUuid,received,read⟩ := m
  simp only [encode,List.length_append] at fits ⊢
  have first := defaultBytes_fits 1 messageUuid.bytes
  have second := Bool.toNat_le received
  have third := Bool.toNat_le read
  rw [reader,
    merge_defaultString DeliveryStatus.default (fun value => DeliveryStatus.mk value false false) (by decide) (by decide) messageUuid (by omega)
      (fun _ => rfl) rfl,
    merge_defaultVarint (DeliveryStatus.mk messageUuid false false) (fun value => DeliveryStatus.mk messageUuid (value != 0) false) (by decide) (by decide) (by omega)
      (fun _ => rfl) rfl,bool_kept,
    ← List.append_nil (defaultVarint 3 read.toNat),
    merge_defaultVarint (DeliveryStatus.mk messageUuid received false) (fun value => DeliveryStatus.mk messageUuid received (value != 0)) (by decide) (by decide) (by omega)
      (fun _ => rfl) rfl,bool_kept]
  rfl

theorem Content.read_encode (m : ProtoMessage) (content : Content) (unset : m.content = none)
    (fits : content.encode.length < 2^64) (rest : List UInt8) :
    ProtoMessage.reader.read m (content.encode ++ rest) = some ({m with content := some content},rest) := by
  obtain ⟨uuid,senderUuid,timestamp,roomUuid,_⟩ := m
  subst unset
  rw [ProtoMessage.reader]
  cases content with
  | text message =>
    simp only [encode] at fits ⊢
    have body := bytesField_fits 5 message.encode
    refine read_messageField (fun value => ProtoMessage.mk uuid senderUuid timestamp roomUuid (some (.text value))) TextMessage.reader
      (by decide) (by decide) (by omega) (message.merge_encode (by omega)) (fun _ => rfl) rest
  | file transfer =>
    simp only [encode] at fits ⊢
    have body := bytesField_fits 6 transfer.encode
    refine read_messageField (fun value => ProtoMessage.mk uuid senderUuid timestamp roomUuid (some (.file value))) FileTransfer.reader
      (by decide) (by decide) (by omega) (transfer.merge_encode (by omega)) (fun _ => rfl) rest
  | presence update =>
    simp only [encode] at fits ⊢
    have body := bytesField_fits 7 update.encode
    refine read_messageField (fun value => ProtoMessage.mk uuid senderUuid timestamp roomUuid (some (.presence value))) PresenceUpdate.reader
      (by decide) (by decide) (by omega) update.merge_encode (fun _ => rfl) rest
  | delivery status =>
    simp only [encode] at fits ⊢
    have body := bytesField_fits 8 status.encode
    refine read_messageField (fun value => ProtoMessage.mk uuid senderUuid timestamp roomUuid (some (.delivery value))) DeliveryStatus.reader
      (by decide) (by decide) (by omega) (status.merge_encode (by omega)) (fun _ => rfl) rest

namespace ProtoMessage

theorem merge_header (m : ProtoMessage) (fits : m.header.length < 2^64) (rest : List UInt8) :
    reader.merge default (m.header ++ rest) = reader.merge {m with content := none} rest := by
  obtain ⟨uuid,senderUuid,timestamp,roomUuid,content⟩ := m
  simp only [header,List.length_append,List.append_assoc] at fits ⊢
  have one := defaultBytes_fits 1 uuid.bytes
  have two := defaultBytes_fits 2 senderUuid.bytes
  have four := defaultBytes_fits 4 roomUuid.bytes
  rw [reader,
    merge_defaultString ProtoMessage.default (fun value => ProtoMessage.mk value .empty 0 .empty none) (by decide) (by decide) uuid (by omega)
      (fun _ => rfl) rfl,
    merge_defaultString (ProtoMessage.mk uuid .empty 0 .empty none) (fun value => ProtoMessage.mk uuid value 0 .empty none) (by decide) (by decide) senderUuid (by omega)
      (fun _ => rfl) rfl,
    merge_defaultVarint (ProtoMessage.mk uuid senderUuid 0 .empty none) (fun value => ProtoMessage.mk uuid senderUuid (Int64.ofNat value) .empty none) (by decide) (by decide)
      (UInt64.toNat_lt _) (fun _ => rfl) rfl,int64_kept,
    merge_defaultString (ProtoMessage.mk uuid senderUuid timestamp .empty none) (fun value => ProtoMessage.mk uuid senderUuid timestamp value none) (by decide) (by decide) roomUuid
      (by omega) (fun _ => rfl) rfl]

theorem decode_encode (m : ProtoMessage) (fits : m.encode.length < 2^64) : decode m.encode = some m := by
  obtain ⟨uuid,senderUuid,timestamp,roomUuid,content⟩ := m
  simp only [encode,List.length_append] at fits
  rw [decode,encode,merge_header _ (by omega)]
  cases content with
  | none => rfl
  | some content =>
    have read := Content.read_encode ⟨uuid,senderUuid,timestamp,roomUuid,none⟩ content rfl (by simp only [encodeContent] at fits; omega) []
    rw [List.append_nil] at read
    rw [encodeContent,reader.merge_step read,FieldReader.merge_nil]

-- What follows a whole message is merged on top of it.
theorem decode_append (m : ProtoMessage) (fits : m.encode.length < 2^64) (more : List UInt8) :
    decode (m.encode ++ more) = reader.merge m more := reader.merge_append (decode_encode m fits) more

end ProtoMessage
end DTChat.ProtoMessages
