import DTChat.AckChoice

namespace DTChat.AckReplies
open ClockTime Utf8Text PeerMessages ProtoMessages WireCodec WireRoundTrip SocketControllers NodeRun AckChoice

theorem text_parts {proto : ProtoMessage} (content : proto.content = some (.text text))
    (read : extractMessageFromProto now proto peers = some (.chatMessage message)) : message.uuid = proto.uuid ∧
      message.text = text.content ∧ message.sender = (findPeerById peers proto.senderUuid).getD .default := by
  simp only [extractMessageFromProto,content] at read
  obtain ⟨tx,_,same⟩ := Option.map_eq_some_iff.mp read
  cases same
  exact ⟨rfl,rfl,rfl⟩

theorem sender_again {senderUuid : Utf8} (found : findPeerById peers senderUuid = some senderPeer) :
    (peers.find? fun p => p.uuid = senderPeer.uuid) = some senderPeer := by
  rw [findPeer_uuid found]
  exact found

theorem findPeer_unlisted {uuid : Utf8} (unlisted : ∀ p ∈ peers, p.uuid ≠ uuid) : findPeerById peers uuid = none := by
  refine List.find?_eq_none.mpr ?_
  intro p member
  simpa using unlisted p member

theorem sendAck_guarded (guard : message.text.startsWith (ascii "[ACK]") = true) (platform : Platform)
    (controller : SocketController) (receivedOnEndpoint : Option Endpoint) :
    controller.sendAckIfNeeded platform message receivedOnEndpoint = none := by
  rw [SocketController.sendAckIfNeeded,if_pos guard]

theorem sendAck_listed {controller : SocketController} (unguarded : message.text.startsWith (ascii "[ACK]") = false)
    (configured : controller.localPeer = some localPeer)
    (found : (controller.peers.find? fun p => p.uuid = message.sender.uuid) = some senderPeer)
    (chosen : chooseAckEndpoint platform senderPeer receivedOnEndpoint = some endpoint)
    (builds : platform.builds endpoint = true) : controller.sendAckIfNeeded platform message receivedOnEndpoint =
      some ⟨endpoint,message,localPeer.uuid,false⟩ := by
  rw [SocketController.sendAckIfNeeded,if_neg (by rw [unguarded]; decide)]
  simp only [configured,found,chosen,builds,↓reduceIte]

theorem sendAck_unlisted {controller : SocketController} (unlisted : ∀ p ∈ controller.peers, p.uuid ≠ message.sender.uuid)
    (platform : Platform) (receivedOnEndpoint : Option Endpoint) :
    controller.sendAckIfNeeded platform message receivedOnEndpoint = none := by
  have missing : (controller.peers.find? fun p => p.uuid = message.sender.uuid) = none := findPeer_unlisted unlisted
  unfold SocketController.sendAckIfNeeded
  rw [missing]
  split
  · rfl
  · cases controller.localPeer <;> rfl

theorem chat_answered {platform : Platform}
    (sockets : ∀ endpoint, isValid platform endpoint = true → platform.builds endpoint = true)
    {controller : SocketController} (configured : controller.localPeer = some localPeer)
    (decoded : decodeProtoTolerant buf = some proto) (content : proto.content = some (.text text))
    (read : deserializeMessage now buf controller.peers = some (.chatMessage message))
    (receivedOnEndpoint : Option Endpoint) :
    (text.content.startsWith (ascii "[ACK]") = true →
      controller.sendAckIfNeeded platform message receivedOnEndpoint = none) ∧
    (text.content.startsWith (ascii "[ACK]") = false → ∀ senderPeer,
      findPeerById controller.peers proto.senderUuid = some senderPeer →
      (∃ endpoint ∈ senderPeer.endpoints, isValid platform endpoint = true) →
      FamilyValid platform senderPeer.endpoints receivedOnEndpoint →
        ∃ endpoint ∈ senderPeer.endpoints, controller.sendAckIfNeeded platform message receivedOnEndpoint =
          some ⟨endpoint,message,localPeer.uuid,false⟩ ∧
        ∀ ackUuid ackNow, createAckMessage ackUuid ackNow message localPeer.uuid false = ⟨ackUuid,localPeer.uuid,
          ackNow.time.timestampMillis,ascii "default",some (.delivery ⟨proto.uuid,true,false⟩)⟩) ∧
    ((∀ p ∈ controller.peers, p.uuid ≠ proto.senderUuid) → (∀ p ∈ controller.peers, p.uuid ≠ Peer.default.uuid) →
      controller.sendAckIfNeeded platform message receivedOnEndpoint = none) := by
  rw [deserialize_decoded decoded] at read
  obtain ⟨uuid,sameText,sender⟩ := text_parts content read
  refine ⟨?_,?_,?_⟩
  · intro guard
    exact sendAck_guarded (by rw [sameText]; exact guard) platform controller receivedOnEndpoint
  · intro unguarded senderPeer found available familyValid
    have preferred := family_preferred familyValid
    obtain ⟨endpoint,chosen⟩ := Option.isSome_iff_exists.mp (preferred.answers.mpr available)
    obtain ⟨member,valid⟩ := preferred.usable endpoint chosen
    rw [found,Option.getD_some] at sender
    refine ⟨endpoint,member,?_,?_⟩
    · apply sendAck_listed (by rw [sameText]; exact unguarded) configured _ chosen (sockets endpoint valid)
      rw [sender]
      exact sender_again found
    · intro ackUuid ackNow
      rw [createAckMessage,uuid]
  · intro unlisted noPlaceholder
    rw [findPeer_unlisted unlisted,Option.getD_none] at sender
    apply sendAck_unlisted
    rw [sender]
    exact noPlaceholder

def sockets : Platform := {loopback with builds := fun _ => true}

def moonNode : SocketController := (SocketController.new.setLocalPeer moon).setPeers [earth]

def moonListener : Endpoint := .udp (ascii "127.0.0.1:7002")

theorem chat_answered_sample : ∃ buf proto message, decodeProtoTolerant buf = some proto ∧
    deserializeMessage epoch buf moonNode.peers = some (.chatMessage message) ∧ ∃ endpoint ∈ earth.endpoints,
      moonNode.sendAckIfNeeded sockets message (some moonListener) = some ⟨endpoint,message,moon.uuid,false⟩ := by
  obtain ⟨wire,encoded⟩ := Option.isSome_iff_exists.mp (by decide +kernel : (serializeMessage sampleMessage).isSome)
  have decoded := decodeTolerant_wire encoded rfl
  obtain ⟨tx,stamp⟩ := Option.isSome_iff_exists.mp (by decide +kernel :
    (DateTime.timestampMillisOpt sampleMessage.shipmentStatus.txTime.timestampMillis).isSome)
  have read := deserialize_chat encoded epoch moonNode.peers
  rw [stamp] at read
  have builds : ∀ endpoint, isValid sockets endpoint = true → sockets.builds endpoint = true := fun _ _ => rfl
  have configured : moonNode.localPeer = some moon := rfl
  have addressed : isValid sockets earthListener = true := by decide +kernel
  have familyValid : FamilyValid sockets earth.endpoints (some moonListener) := by
    intro receivedEndpoint chosen given found
    cases given
    have first : earth.endpoints.find? (familyMatch moonListener) = some earthListener := rfl
    cases first.symm.trans found
    exact addressed
  obtain ⟨endpoint,member,sent,_⟩ := (chat_answered builds configured decoded rfl read (some moonListener)).2.1
    (by decide +kernel) earth (by decide +kernel) ⟨earthListener,List.mem_cons_self,addressed⟩ familyValid
  exact ⟨wire,_,_,decoded,read,endpoint,member,sent⟩

-- A text that starts like the acknowledgements of old gets none.
def quoting : ChatMessage := {sampleMessage with text := ascii "[ACK] seen, thanks"}

theorem quoting_unanswered : ∃ buf proto message, decodeProtoTolerant buf = some proto ∧
    proto.content = some (.text ⟨quoting.text,quoting.response⟩) ∧ proto.senderUuid = earth.uuid ∧
    deserializeMessage epoch buf moonNode.peers = some (.chatMessage message) ∧ earth ∈ moonNode.peers ∧
    (∃ endpoint ∈ earth.endpoints, isValid sockets endpoint = true) ∧ moonNode.localPeer = some moon ∧
      moonNode.sendAckIfNeeded sockets message none = none := by
  obtain ⟨wire,encoded⟩ := Option.isSome_iff_exists.mp (by decide +kernel : (serializeMessage quoting).isSome)
  have decoded := decodeTolerant_wire encoded rfl
  obtain ⟨tx,stamp⟩ := Option.isSome_iff_exists.mp (by decide +kernel :
    (DateTime.timestampMillisOpt quoting.shipmentStatus.txTime.timestampMillis).isSome)
  have read := deserialize_chat encoded epoch moonNode.peers
  rw [stamp] at read
  refine ⟨wire,_,_,decoded,rfl,rfl,read,List.mem_cons_self,⟨_,List.mem_cons_self,by decide +kernel⟩,rfl,?_⟩
  have guard : quoting.text.startsWith (ascii "[ACK]") = true := by decide +kernel
  exact sendAck_guarded guard sockets moonNode none

end DTChat.AckReplies
