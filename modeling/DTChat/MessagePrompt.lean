import DTChat.SocketController

namespace DTChat.MessagePrompts
open ClockTime Utf8Text PeerMessages SortedInsert ChatModels SocketControllers

-- layout/rooms/message_prompt.rs. A task spawned by `send_to_peer`.
structure ChatTask where
  endpoint : Endpoint
  message : ChatMessage
  deriving DecidableEq

def recipients (model : ChatModel) : List Peer :=
  model.peers.filter fun p => p.uuid ≠ model.localpeer.uuid ∧ p.endpoints ≠ []

-- `predict` is the contact plan's answer for a recipient, if it is asked and has one.
def delivery (predict : Peer → Option DateTime) (peer : Peer) : Delivery := ⟨peer.uuid,peer.name,predict peer,none⟩

def addressed (predict : Peer → Option DateTime) (model : ChatModel) (msg : ChatMessage) : ChatMessage :=
  {msg with shipmentStatus := .sent msg.shipmentStatus.txTime ((recipients model).map (delivery predict))}

-- Recipients have an endpoint, so the indexing does not fail.
def sendToPeer (platform : Platform) (model : ChatModel) (msg : ChatMessage) (receiver : Peer) :
    ChatModel × Option ChatTask :=
  match receiver.endpoints with
  | [] => (model,none)
  | endpoint :: _ =>
    if platform.builds endpoint then (model,some ⟨endpoint,msg⟩)
    else (model.notifyObservers (.error (((ascii "Socket init failed for ").append receiver.name).append (ascii "."))),none)

def sendToPeers (platform : Platform) (model : ChatModel) (msg : ChatMessage) : List Peer → ChatModel × List ChatTask
  | [] => (model,[])
  | receiver :: later =>
    let first := sendToPeer platform model msg receiver
    let rest := sendToPeers platform first.1 msg later
    (rest.1,first.2.toList ++ rest.2)

def manageSend (platform : Platform) (predict : Peer → Option DateTime) (model : ChatModel) (msg : ChatMessage) :
    ChatModel × List ChatTask :=
  let sent := addressed predict model msg
  sendToPeers platform (model.addMessage platform.binary sent .sent) sent (recipients model)

theorem sendToPeers_model (platform : Platform) (model : ChatModel) (msg : ChatMessage) (receivers : List Peer) :
    ∃ notified, (sendToPeers platform model msg receivers).1 = {model with notified := notified} := by
  induction receivers generalizing model with
  | nil => exact ⟨model.notified,rfl⟩
  | cons receiver later ih =>
    have first : ∃ notified, (sendToPeer platform model msg receiver).1 = {model with notified := notified} := by
      unfold sendToPeer
      split
      · exact ⟨model.notified,rfl⟩
      · split
        · exact ⟨model.notified,rfl⟩
        · exact ⟨_,rfl⟩
    obtain ⟨early,first⟩ := first
    obtain ⟨notified,rest⟩ := ih (sendToPeer platform model msg receiver).1
    refine ⟨notified,?_⟩
    rw [sendToPeers]
    simp only
    rw [rest,first]

theorem sendToPeers_tasks (platform : Platform) (model : ChatModel) (msg : ChatMessage) (receivers : List Peer) :
    ∀ task ∈ (sendToPeers platform model msg receivers).2, task.message = msg ∧
      ∃ receiver ∈ receivers, task.endpoint ∈ receiver.endpoints := by
  induction receivers generalizing model with
  | nil => intro task member; cases member
  | cons receiver later ih =>
    intro task member
    rcases List.mem_append.mp member with first | rest
    · have found := Option.mem_toList.mp first
      unfold sendToPeer at found
      split at found
      · cases found
      · rename_i endpoint others listed
        split at found
        · cases Option.some.inj found
          exact ⟨rfl,receiver,by simp,by rw [listed]; simp⟩
        · cases found
    · obtain ⟨same,peer,inside,listed⟩ := ih _ task rest
      exact ⟨same,peer,List.mem_cons_of_mem _ inside,listed⟩

theorem sendToPeers_copy (platform : Platform) (model : ChatModel) (msg : ChatMessage) {receivers : List Peer}
    (member : receiver ∈ receivers) (listed : receiver.endpoints = endpoint :: others)
    (builds : platform.builds endpoint = true) :
    ⟨endpoint,msg⟩ ∈ (sendToPeers platform model msg receivers).2 := by
  induction receivers generalizing model with
  | nil => cases member
  | cons first later ih =>
    rw [sendToPeers]
    rcases List.mem_cons.mp member with rfl | member
    · apply List.mem_append_left
      simp [sendToPeer,listed,builds]
    · exact List.mem_append_right _ (ih _ member)

theorem mem_recipients : peer ∈ recipients model ↔
    peer ∈ model.peers ∧ peer.uuid ≠ model.localpeer.uuid ∧ peer.endpoints ≠ [] := by
  simp [recipients]

end DTChat.MessagePrompts
