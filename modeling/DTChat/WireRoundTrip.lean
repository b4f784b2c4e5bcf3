import DTChat.WireCodec

namespace DTChat.WireRoundTrip
open ClockTime Utf8Text PeerMessages ProtoMessages WireCodec

def received (message : ChatMessage) (peers : List Peer) (tx : DateTime) (now : UtcNow) : ChatMessage :=
  ⟨message.uuid,message.response,(findPeerById peers message.sender.uuid).getD .default,message.text,
    .received tx now.time⟩

theorem extract_chat (message : ChatMessage) (now : UtcNow) (peers : List Peer) :
    extractMessageFromProto now (constructProtoMessage message) peers =
      (DateTime.timestampMillisOpt message.shipmentStatus.txTime.timestampMillis).map fun tx =>
        .chatMessage (received message peers tx now) := rfl

theorem extract_ack (uuid localPeerUuid : Utf8) (now later : UtcNow) (message : ChatMessage) (isRead : Bool)
    (peers : List Peer) :
    extractMessageFromProto later (createAckMessage uuid now message localPeerUuid isRead) peers =
      some (.ack message.uuid isRead now.time.floorMillis localPeerUuid) := by
  change (DateTime.timestampMillisOpt now.time.timestampMillis).map _ = _
  rw [now.millis]
  rfl

theorem findPeer_uuid {uuid : Utf8} (found : findPeerById peers uuid = some peer) : peer.uuid = uuid := by
  have matched := List.find?_some found
  exact of_decide_eq_true matched

theorem deserialize_chat (encoded : serializeMessage message = some wire) (now : UtcNow) (peers : List Peer) :
    deserializeMessage now wire peers =
      (DateTime.timestampMillisOpt message.shipmentStatus.txTime.timestampMillis).map fun tx =>
        .chatMessage (received message peers tx now) := by
  rw [deserialize_decoded (decodeTolerant_wire encoded rfl),extract_chat]

theorem deserialize_ack (encoded : sendAckMessage uuid now message localPeerUuid isRead = some wire)
    (later : UtcNow) (peers : List Peer) :
    deserializeMessage later wire peers = some (.ack message.uuid isRead now.time.floorMillis localPeerUuid) := by
  rw [deserialize_decoded (decodeTolerant_wire encoded rfl),extract_ack]

theorem construct_received (found : findPeerById peers message.sender.uuid = some peer)
    (read : DateTime.timestampMillisOpt message.shipmentStatus.txTime.timestampMillis = some tx) (now : UtcNow) :
    constructProtoMessage (received message peers tx now) = constructProtoMessage message := by
  have sender := findPeer_uuid found
  have stamp := (DateTime.millis_kept read).1
  simp only [constructProtoMessage,received,found,Option.getD_some,sender,MessageStatus.txTime] at stamp ⊢
  rw [stamp]

theorem wire_round_trip (encoded : serializeMessage message = some wire)
    (readable : message.shipmentStatus.txTime.Readable) (now : UtcNow) (peers : List Peer) :
    (∃ tx, DateTime.MillisOf message.shipmentStatus.txTime tx ∧
      deserializeMessage now wire peers = some (.chatMessage (received message peers tx now)) ∧
      ((findPeerById peers message.sender.uuid).isSome →
        serializeMessage (received message peers tx now) = some wire)) ∧
    ∀ uuid ackNow receivedMsg localPeerUuid isRead ackWire,
      sendAckMessage uuid ackNow receivedMsg localPeerUuid isRead = some ackWire →
        deserializeMessage now ackWire peers =
          some (.ack receivedMsg.uuid isRead ackNow.time.floorMillis localPeerUuid) := by
  constructor
  · obtain ⟨tx,read,kept⟩ := DateTime.millis_readable readable
    refine ⟨tx,kept,?_,?_⟩
    · rw [deserialize_chat encoded,read]
      rfl
    · intro listed
      obtain ⟨peer,found⟩ := Option.isSome_iff_exists.mp listed
      rw [serializeMessage,construct_received found read]
      exact encoded
  · intro uuid ackNow receivedMsg localPeerUuid isRead ackWire ackEncoded
    exact deserialize_ack ackEncoded now peers

def epoch : UtcNow := ⟨⟨0,0,by decide,by decide⟩,by decide⟩

def sampleMessage : ChatMessage :=
  ⟨ascii "msg-1",some .empty,⟨ascii "10",ascii "earth",[],2⟩,ascii "hi",
    .sent ⟨1784556000,959123456,by decide,by decide⟩ []⟩

theorem wire_round_trip_sample : ∃ wire tx, serializeMessage sampleMessage = some wire ∧
    deserializeMessage epoch wire [sampleMessage.sender] =
      some (.chatMessage (received sampleMessage [sampleMessage.sender] tx epoch)) := by
  obtain ⟨wire,encoded⟩ := Option.isSome_iff_exists.mp (by decide +kernel : (serializeMessage sampleMessage).isSome)
  obtain ⟨⟨tx,_,decoded,_⟩,_⟩ := wire_round_trip encoded (by decide) epoch [sampleMessage.sender]
  exact ⟨wire,tx,encoded,decoded⟩

-- A leap second in the last second of chrono's range is sent but never read.
def lastLeapSecond : ChatMessage :=
  {sampleMessage with shipmentStatus := .sent ⟨maxSecs,1999999999,by decide,by decide⟩ []}

theorem last_leap_second_lost : ∃ wire, serializeMessage lastLeapSecond = some wire ∧
    deserializeMessage epoch wire [lastLeapSecond.sender] = none :=
  ⟨(serializeMessage lastLeapSecond).getD [],by decide +kernel⟩

end DTChat.WireRoundTrip
