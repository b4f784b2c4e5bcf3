import DTChat.Lib.ProtoRecord

namespace DTChat.ProtoMessages
open PrefixReader ProtoWire ProtoRecord Utf8Text

-- proto/message.proto, with the field types prost gives it.
structure TextMessage where
  content : Utf8
  replyToUuid : Option Utf8
  deriving DecidableEq

structure FileTransfer where
  filename : Utf8
  mimeType : Utf8
  fileSize : UInt64
  chunkData : List UInt8
  chunkIndex : UInt32
  totalChunks : UInt32
  fileHash : Utf8
  deriving DecidableEq

structure PresenceUpdate where
  status : Int32
  deriving DecidableEq

structure DeliveryStatus where
  messageUuid : Utf8
  received : Bool
  read : Bool
  deriving DecidableEq

inductive Content where
  | text (message : TextMessage)
  | file (transfer : FileTransfer)
  | presence (update : PresenceUpdate)
  | delivery (status : DeliveryStatus)
  deriving DecidableEq

structure ProtoMessage where
  uuid : Utf8
  senderUuid : Utf8
  timestamp : Int64
  roomUuid : Utf8
  content : Option Content
  deriving DecidableEq

def TextMessage.default : TextMessage := ⟨.empty,none⟩
def FileTransfer.default : FileTransfer := ⟨.empty,.empty,0,[],0,0,.empty⟩
def PresenceUpdate.default : PresenceUpdate := ⟨0⟩
def DeliveryStatus.default : DeliveryStatus := ⟨.empty,false,false⟩
def ProtoMessage.default : ProtoMessage := ⟨.empty,.empty,0,.empty,none⟩

-- prost's `merge_field`: `limit` is the recursion budget of unknown groups.
def TextMessage.mergeField (limit : Nat) (m : TextMessage) (tag : Nat) (wire : WireType) : Reader TextMessage :=
  match tag with
  | 1 => onRead (fun value => {m with content := value}) (stringValue wire)
  | 2 => onRead (fun value => {m with replyToUuid := some value}) (stringValue wire)
  | _ => onRead (fun _ => m) (skipField limit tag wire)

def FileTransfer.mergeField (limit : Nat) (m : FileTransfer) (tag : Nat) (wire : WireType) : Reader FileTransfer :=
  match tag with
  | 1 => onRead (fun value => {m with filename := value}) (stringValue wire)
  | 2 => onRead (fun value => {m with mimeType := value}) (stringValue wire)
  | 3 => onRead (fun value => {m with fileSize := UInt64.ofNat value}) (varintValue wire)
  | 4 => onRead (fun value => {m with chunkData := value}) (bytesValue wire)
  | 5 => onRead (fun value => {m with chunkIndex := UInt32.ofNat value}) (varintValue wire)
  | 6 => onRead (fun value => {m with totalChunks := UInt32.ofNat value}) (varintValue wire)
  | 7 => onRead (fun value => {m with fileHash := value}) (stringValue wire)
  | _ => onRead (fun _ => m) (skipField limit tag wire)

def PresenceUpdate.mergeField (limit : Nat) (m : PresenceUpdate) (tag : Nat) (wire : WireType) :
    Reader PresenceUpdate :=
  match tag with
  | 1 => onRead (fun value => ⟨Int32.ofNat value⟩) (varintValue wire)
  | _ => onRead (fun _ => m) (skipField limit tag wire)

def DeliveryStatus.mergeField (limit : Nat) (m : DeliveryStatus) (tag : Nat) (wire : WireType) :
    Reader DeliveryStatus :=
  match tag with
  | 1 => onRead (fun value => {m with messageUuid := value}) (stringValue wire)
  | 2 => onRead (fun value => {m with received := value != 0}) (varintValue wire)
  | 3 => onRead (fun value => {m with read := value != 0}) (varintValue wire)
  | _ => onRead (fun _ => m) (skipField limit tag wire)

theorem TextMessage.stable (limit : Nat) (m : TextMessage) (tag : Nat) (wire : WireType) :
    Stable (m.mergeField limit tag wire) := by
  unfold TextMessage.mergeField
  split
  · exact Stable.onRead (stable_stringValue wire)
  · exact Stable.onRead (stable_stringValue wire)
  · exact Stable.onRead (stable_skipField limit _ wire)

theorem FileTransfer.stable (limit : Nat) (m : FileTransfer) (tag : Nat) (wire : WireType) :
    Stable (m.mergeField limit tag wire) := by
  unfold FileTransfer.mergeField
  split
  · exact Stable.onRead (stable_stringValue wire)
  · exact Stable.onRead (stable_stringValue wire)
  · exact Stable.onRead (stable_varintValue wire)
  · exact Stable.onRead (stable_bytesValue wire)
  · exact Stable.onRead (stable_varintValue wire)
  · exact Stable.onRead (stable_varintValue wire)
  · exact Stable.onRead (stable_stringValue wire)
  · exact Stable.onRead (stable_skipField limit _ wire)

theorem PresenceUpdate.stable (limit : Nat) (m : PresenceUpdate) (tag : Nat) (wire : WireType) :
    Stable (m.mergeField limit tag wire) := by
  unfold PresenceUpdate.mergeField
  split
  · exact Stable.onRead (stable_varintValue wire)
  · exact Stable.onRead (stable_skipField limit _ wire)

theorem DeliveryStatus.stable (limit : Nat) (m : DeliveryStatus) (tag : Nat) (wire : WireType) :
    Stable (m.mergeField limit tag wire) := by
  unfold DeliveryStatus.mergeField
  split
  · exact Stable.onRead (stable_stringValue wire)
  · exact Stable.onRead (stable_varintValue wire)
  · exact Stable.onRead (stable_varintValue wire)
  · exact Stable.onRead (stable_skipField limit _ wire)

def recursionLimit : Nat := 100

def TextMessage.reader : FieldReader TextMessage := recordReader _ (TextMessage.stable (recursionLimit-1))
def FileTransfer.reader : FieldReader FileTransfer := recordReader _ (FileTransfer.stable (recursionLimit-1))
def PresenceUpdate.reader : FieldReader PresenceUpdate := recordReader _ (PresenceUpdate.stable (recursionLimit-1))
def DeliveryStatus.reader : FieldReader DeliveryStatus := recordReader _ (DeliveryStatus.stable (recursionLimit-1))

-- A oneof member already there is merged into; another kind is replaced.
def Content.textOf : Option Content → TextMessage
  | some (.text message) => message
  | _ => .default

def Content.fileOf : Option Content → FileTransfer
  | some (.file transfer) => transfer
  | _ => .default

def Content.presenceOf : Option Content → PresenceUpdate
  | some (.presence update) => update
  | _ => .default

def Content.deliveryOf : Option Content → DeliveryStatus
  | some (.delivery status) => status
  | _ => .default

def ProtoMessage.mergeField (m : ProtoMessage) (tag : Nat) (wire : WireType) : Reader ProtoMessage :=
  match tag with
  | 1 => onRead (fun value => {m with uuid := value}) (stringValue wire)
  | 2 => onRead (fun value => {m with senderUuid := value}) (stringValue wire)
  | 3 => onRead (fun value => {m with timestamp := Int64.ofNat value}) (varintValue wire)
  | 4 => onRead (fun value => {m with roomUuid := value}) (stringValue wire)
  | 5 => onRead (fun value => {m with content := some (.text value)})
      (messageValue TextMessage.reader (Content.textOf m.content) wire)
  | 6 => onRead (fun value => {m with content := some (.file value)})
      (messageValue FileTransfer.reader (Content.fileOf m.content) wire)
  | 7 => onRead (fun value => {m with content := some (.presence value)})
      (messageValue PresenceUpdate.reader (Content.presenceOf m.content) wire)
  | 8 => onRead (fun value => {m with content := some (.delivery value)})
      (messageValue DeliveryStatus.reader (Content.deliveryOf m.content) wire)
  | _ => onRead (fun _ => m) (skipField recursionLimit tag wire)

theorem ProtoMessage.stable (m : ProtoMessage) (tag : Nat) (wire : WireType) :
    Stable (m.mergeField tag wire) := by
  unfold ProtoMessage.mergeField
  split
  · exact Stable.onRead (stable_stringValue wire)
  · exact Stable.onRead (stable_stringValue wire)
  · exact Stable.onRead (stable_varintValue wire)
  · exact Stable.onRead (stable_stringValue wire)
  · exact Stable.onRead (stable_messageValue _ _ wire)
  · exact Stable.onRead (stable_messageValue _ _ wire)
  · exact Stable.onRead (stable_messageValue _ _ wire)
  · exact Stable.onRead (stable_messageValue _ _ wire)
  · exact Stable.onRead (stable_skipField recursionLimit _ wire)

def ProtoMessage.reader : FieldReader ProtoMessage := recordReader _ ProtoMessage.stable

def ProtoMessage.decode (bytes : List UInt8) : Option ProtoMessage := reader.merge default bytes

def TextMessage.encode (m : TextMessage) : List UInt8 :=
  defaultBytes 1 m.content.bytes ++ optionalString 2 m.replyToUuid

def FileTransfer.encode (m : FileTransfer) : List UInt8 :=
  defaultBytes 1 m.filename.bytes ++ (defaultBytes 2 m.mimeType.bytes ++ (defaultVarint 3 m.fileSize.toNat ++
    (defaultBytes 4 m.chunkData ++ (defaultVarint 5 m.chunkIndex.toNat ++
      (defaultVarint 6 m.totalChunks.toNat ++ defaultBytes 7 m.fileHash.bytes)))))

def PresenceUpdate.encode (m : PresenceUpdate) : List UInt8 := defaultVarint 1 m.status.toInt64.toUInt64.toNat

def DeliveryStatus.encode (m : DeliveryStatus) : List UInt8 :=
  defaultBytes 1 m.messageUuid.bytes ++ (defaultVarint 2 m.received.toNat ++ defaultVarint 3 m.read.toNat)

def Content.encode : Content → List UInt8
  | .text message => bytesField 5 message.encode
  | .file transfer => bytesField 6 transfer.encode
  | .presence update => bytesField 7 update.encode
  | .delivery status => bytesField 8 status.encode

def encodeContent : Option Content → List UInt8
  | none => []
  | some content => content.encode

def ProtoMessage.header (m : ProtoMessage) : List UInt8 :=
  defaultBytes 1 m.uuid.bytes ++ (defaultBytes 2 m.senderUuid.bytes ++
    (defaultVarint 3 m.timestamp.toUInt64.toNat ++ defaultBytes 4 m.roomUuid.bytes))

def ProtoMessage.encode (m : ProtoMessage) : List UInt8 := m.header ++ encodeContent m.content

end DTChat.ProtoMessages
