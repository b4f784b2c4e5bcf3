import DTChat.ViewOrder

namespace DTChat.FastInsert
open ClockTime Utf8Text PeerMessages SortedInsert ChatModels MessageOrder ViewOrder

def appendAndSort (model : ChatModel) (newMsg : ChatMessage) : List ChatMessage :=
  (ChatModel.sortMessages {model with messages := model.messages ++ [newMsg]} model.sortStrategy).messages

def Agrees (binary : BinarySearch ChatMessage) (model : ChatModel) (newMsg : ChatMessage) (direction : MessageDirection) :
    Prop := (model.addMessage binary newMsg direction).messages = appendAndSort model newMsg

def insertionPoint (binary : BinarySearch ChatMessage) (model : ChatModel) (newMsg : ChatMessage) : Nat :=
  binary.index model.messages fun msg => model.sortStrategy.cmp msg newMsg

theorem agrees_behind (binary : BinarySearch ChatMessage) {model : ChatModel} (ordered : InOrder model)
    (newMsg : ChatMessage) (direction : MessageDirection) : Agrees binary model newMsg direction ↔
      ∀ m ∈ model.messages.drop (insertionPoint binary model newMsg), model.sortStrategy.cmp m newMsg = .eq → m = newMsg := by
  unfold Agrees appendAndSort
  rw [addMessage_messages,sortMessages_messages]
  obtain ⟨inside,_⟩ := binary.index_splits (Sorted.ordered ordered newMsg)
  exact insertIdx_stable_iff inside newMsg (Sorted.insertIdx binary ordered newMsg)

-- Where the search may stop at any match, nothing but copies may have the key.
theorem agrees_always_iff {model : ChatModel} (ordered : InOrder model) (newMsg : ChatMessage) (direction : MessageDirection) :
    (∀ binary, Agrees binary model newMsg direction) ↔
      ∀ m ∈ model.messages, model.sortStrategy.cmp m newMsg = .eq → m = newMsg := by
  constructor
  · intro always m member equal
    have behind := (agrees_behind firstMatch ordered newMsg direction).mp (always firstMatch)
    exact behind m (firstMatch_first member equal) equal
  · intro copies binary
    apply (agrees_behind binary ordered newMsg direction).mpr
    exact fun m member equal => copies m (List.mem_of_mem_drop member) equal

theorem agrees_new_iff (binary : BinarySearch ChatMessage) {model : ChatModel} (ordered : InOrder model)
    {newMsg : ChatMessage} (fresh : newMsg ∉ model.messages) (direction : MessageDirection) :
    Agrees binary model newMsg direction ↔ ∀ m ∈ model.messages, model.sortStrategy.cmp m newMsg ≠ .eq := by
  rw [agrees_behind binary ordered]
  constructor
  · intro copies m member equal
    obtain ⟨found,behind,same⟩ := binary.index_match (Sorted.ordered ordered newMsg) member equal
    have copy := copies found behind same
    exact fresh (copy ▸ List.mem_of_mem_drop behind)
  · intro apart m member equal
    exact absurd equal (apart m (List.mem_of_mem_drop member))

theorem fast_insert_iff {model : ChatModel} (ordered : InOrder model) (newMsg : ChatMessage) (direction : MessageDirection) :
    ((∀ binary, Agrees binary model newMsg direction) ↔
      ∀ m ∈ model.messages, model.sortStrategy.cmp m newMsg = .eq → m = newMsg) ∧
    ∀ binary, newMsg ∉ model.messages → (Agrees binary model newMsg direction ↔
      ∀ m ∈ model.messages, model.sortStrategy.cmp m newMsg ≠ .eq) :=
  ⟨agrees_always_iff ordered newMsg direction,fun binary fresh => agrees_new_iff binary ordered fresh direction⟩

def moonView : ChatModel := {ChatModel.new [] ours.sender with sortStrategy := .relative theirs.sender,messages := [theirs]}

theorem moonView_inOrder : InOrder moonView := List.pairwise_singleton _ _

theorem fast_insert_iff_apart : Agrees stdSearch moonView ours .sent :=
  ((fast_insert_iff moonView_inOrder ours .sent).2 stdSearch (by decide +kernel)).mpr (by decide +kernel)

def next : ChatMessage := {theirs with uuid := ascii "next",shipmentStatus := .received (tick 10) (tick 31)}

theorem equal_times_reversed : (moonView.addMessage stdSearch next .received).messages = [next,theirs] ∧
    appendAndSort moonView next = [theirs,next] ∧ ¬∀ model newMsg direction, InOrder model →
      Agrees stdSearch model newMsg direction := by
  have inserted : (moonView.addMessage stdSearch next .received).messages = [next,theirs] := by decide +kernel
  have sorted : appendAndSort moonView next = [theirs,next] := by
    unfold appendAndSort
    rw [sortMessages_messages]
    apply List.mergeSort_of_pairwise
    decide +kernel
  refine ⟨inserted,sorted,fun claimed => ?_⟩
  have agrees := claimed moonView next .received moonView_inOrder
  rw [Agrees,inserted,sorted] at agrees
  exact absurd agrees (by decide +kernel)

end DTChat.FastInsert
