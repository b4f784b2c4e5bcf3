import DTChat.NodeRun
import DTChat.WireFraming
import DTChat.Lib.Precedence

namespace DTChat.ArrivalOrder
open ClockTime Utf8Text PeerMessages WireCodec WireRoundTrip SortedInsert ChatModels MessageOrder SocketControllers NodeLetters
  NodeRun Runs Precedence

def turns : List NodeEvent → List Nat
  | [] => []
  | .handle task _ _ :: later => task :: turns later
  | _ :: later => turns later

def Advances (s : Machine) : Prop := s.readings.Pairwise fun a b => DateTime.cmp a.time b.time = .lt

-- Two chat messages that one UDP or BP listener read one after the other, both handled.
structure Successive (s : Machine) (i j : Nat) (m n : ChatMessage) : Prop where
  order : i < j
  listener : ∃ endpoint early late, isTcp endpoint = false ∧ s.reads[i]? = some (endpoint,early) ∧
    s.reads[j]? = some (endpoint,late)
  first : (i,m) ∈ s.handled
  second : (j,n) ∈ s.handled

-- Messages are displayed from the top in the order of the list.
def ArrivalKept (s : Machine) : Prop := ∀ i j m n, Successive s i j m n → ¬Before s.node.model.messages n m

def InTurn (events : List NodeEvent) (s : Machine) : Prop :=
  ∀ i j m n, Successive s i j m n → Before (turns events) i j

def arrival (entry : Nat × ChatMessage) : DateTime := arrivalTime entry.2.shipmentStatus
def arrivals (s : Machine) : List DateTime := s.handled.map arrival

structure Up (s : Machine) : Prop where
  registered : s.node.controller.observers = [.chatModel]
  inOrder : InOrder s.node.model
  reads : s.reads = []
  waiting : s.waiting = []
  ran : s.ran = []
  handled : s.handled = []

structure Timed (s : Machine) : Prop where
  registered : s.node.controller.observers = [.chatModel]
  inOrder : InOrder s.node.model
  waiting : s.waiting.Nodup
  once : s.ran.Nodup
  apart : ∀ task ∈ s.waiting, task ∉ s.ran
  numbered : ∀ task, task ∈ s.waiting ∨ task ∈ s.ran → task < s.reads.length
  turns : (s.handled.map Prod.fst).Sublist s.ran
  stamped : (arrivals s).Sublist (s.readings.map UtcNow.time)
  displayed : ∀ entry ∈ s.handled, entry.2 ∈ s.node.model.messages ∧ ∃ tx rx, entry.2.shipmentStatus = .received tx rx

theorem up_timed (up : Up s) : Timed s := by
  have idle : arrivals s = [] := by rw [arrivals,up.handled]; rfl
  refine ⟨up.registered,up.inOrder,?_,?_,?_,?_,?_,?_,?_⟩
  · rw [up.waiting]; exact List.nodup_nil
  · rw [up.ran]; exact List.nodup_nil
  · rw [up.waiting]; exact fun task member => by cases member
  · rw [up.waiting,up.ran]
    rintro task (waiting | ran)
    · cases waiting
    · cases ran
  · rw [up.handled]; exact List.nil_sublist _
  · rw [idle]; exact List.nil_sublist _
  · rw [up.handled]; exact fun entry member => by cases member

theorem timed_wired (timed : Timed s) : Wired s := ⟨.inr timed.registered,timed.inOrder⟩

theorem timed_quiet {s t : Machine} (timed : Timed s) (wired : Wired t) (letters : letters s.node.model ⊆ letters t.node.model)
    (controller : t.node.controller = s.node.controller) (reads : t.reads = s.reads) (waiting : t.waiting = s.waiting)
    (ran : t.ran = s.ran) (handled : t.handled = s.handled) (readings : s.readings.Sublist t.readings) : Timed t := by
  have same : arrivals t = arrivals s := by rw [arrivals,handled]; rfl
  refine ⟨?_,wired.inOrder,?_,?_,?_,?_,?_,?_,?_⟩
  · rw [controller]; exact timed.registered
  · rw [waiting]; exact timed.waiting
  · rw [ran]; exact timed.once
  · rw [waiting,ran]; exact timed.apart
  · rw [waiting,ran,reads]; exact timed.numbered
  · rw [handled,ran]; exact timed.turns
  · rw [same]; exact timed.stamped.trans (readings.map _)
  · rw [handled]
    intro entry member
    obtain ⟨inside,tx,rx,received⟩ := timed.displayed entry member
    exact ⟨received_stays letters inside received,tx,rx,received⟩

theorem read_timed {s : Machine} (timed : Timed s) (listener : Endpoint) (payload : List UInt8) :
    Timed (s.read listener payload) := by
  have fresh : s.reads.length ∉ s.waiting := fun member => Nat.lt_irrefl _ (timed.numbered _ (.inl member))
  refine ⟨timed.registered,timed.inOrder,?_,timed.once,?_,?_,timed.turns,timed.stamped,timed.displayed⟩
  · exact List.nodup_append.mpr ⟨timed.waiting,List.nodup_singleton _,fun a inside b last same =>
      fresh (List.mem_singleton.mp last ▸ same ▸ inside)⟩
  · intro task member
    rcases List.mem_append.mp member with old | last
    · exact timed.apart task old
    · cases List.mem_singleton.mp last
      exact fun ran => Nat.lt_irrefl _ (timed.numbered _ (.inr ran))
  · intro task member
    simp only [Machine.read,List.length_append,List.length_singleton]
    rcases member with waiting | ran
    · rcases List.mem_append.mp waiting with old | last
      · exact Nat.lt_succ_of_lt (timed.numbered task (.inl old))
      · cases List.mem_singleton.mp last
        exact Nat.lt_succ_self _
    · exact Nat.lt_succ_of_lt (timed.numbered task (.inr ran))

theorem handle_timed {s : Machine} (timed : Timed s) (platform : Platform) (turn : task ∈ s.waiting) (listener : Endpoint)
    (payload : List UInt8) (now : UtcNow) (peerAddr : Option Utf8)
    (wired : Wired (s.handle platform task listener payload now peerAddr))
    (letters : letters s.node.model ⊆ letters (s.handle platform task listener payload now peerAddr).node.model) :
    Timed (s.handle platform task listener payload now peerAddr) := by
  obtain ⟨added,follows,_⟩ := handleDeserialized_follows (timed_wired timed).observed platform
    (receivedOn listener peerAddr) (deserializeMessage now payload s.node.controller.peers)
  have left : ∀ other ∈ s.waiting.erase task, other ∈ s.waiting ∧ other ≠ task := by
    intro other member
    obtain ⟨apart,inside⟩ := (timed.waiting.mem_erase_iff).mp member
    exact ⟨inside,apart⟩
  refine ⟨?_,wired.inOrder,timed.waiting.erase _,?_,?_,?_,?_,?_,?_⟩
  · exact follows.controller.symm ▸ timed.registered
  · exact List.nodup_append.mpr ⟨timed.once,List.nodup_singleton _,fun a ran b last same =>
      timed.apart task turn (List.mem_singleton.mp last ▸ same ▸ ran)⟩
  · intro other member ran
    obtain ⟨inside,apart⟩ := left other member
    rcases List.mem_append.mp ran with old | last
    · exact timed.apart other inside old
    · exact apart (List.mem_singleton.mp last)
  · rintro other (member | ran)
    · exact timed.numbered other (.inl (left other member).1)
    · rcases List.mem_append.mp ran with old | last
      · exact timed.numbered other (.inr old)
      · cases List.mem_singleton.mp last
        exact timed.numbered task (.inl turn)
  · rcases readChat_cases (deserializeMessage now payload s.node.controller.peers) with none_read | ⟨message,_,one⟩
    · simp only [Machine.handle,none_read,List.map_nil,List.append_nil]
      exact timed.turns.trans (List.sublist_append_left _ _)
    · simp only [Machine.handle,one,List.map_cons,List.map_nil,List.map_append]
      exact timed.turns.append_right _
  · rcases readChat_cases (deserializeMessage now payload s.node.controller.peers) with none_read | ⟨message,decoded,one⟩
    · simp only [arrivals,Machine.handle,none_read,List.map_nil,List.append_nil]
      exact timed.stamped
    · obtain ⟨tx,received⟩ := deserialize_received decoded
      simp only [arrivals,arrival,Machine.handle,one,List.map_cons,List.map_nil,List.map_append,received,arrivalTime]
      exact timed.stamped.append_right _
  · intro entry member
    rcases List.mem_append.mp member with old | fresh
    · obtain ⟨inside,tx,rx,received⟩ := timed.displayed entry old
      exact ⟨received_stays letters inside received,tx,rx,received⟩
    · obtain ⟨message,read,rfl⟩ := List.mem_map.mp fresh
      have decoded := mem_readChat.mp read
      obtain ⟨tx,received⟩ := deserialize_received decoded
      have inside := handle_gains (timed_wired timed) timed.registered platform task listener peerAddr decoded
      exact ⟨inside,tx,_,received⟩

theorem step_timed {platform : Platform} {s t : Machine} (timed : Timed s) (taken : Steps platform s event t) : Timed t := by
  obtain ⟨wired,letters⟩ := step_wired (timed_wired timed) taken
  rcases step_parts taken with ⟨endpoint,later,bound,_,_,rfl⟩ | ⟨_,deaf,rfl⟩ | ⟨listener,payload,_,rfl⟩ |
    ⟨task,now,peerAddr,listener,payload,_,turn,_,rfl⟩ | ⟨uuid,text,now,predict,_,rfl⟩ | ⟨strat,_,rfl⟩
  · exact timed_quiet timed wired letters rfl rfl rfl rfl rfl (List.Sublist.refl _)
  · rw [timed.registered] at deaf
    cases deaf
  · exact read_timed timed listener payload
  · exact handle_timed timed platform turn listener payload now peerAddr wired letters
  · exact timed_quiet timed wired letters rfl rfl rfl rfl rfl (List.sublist_append_left _ _)
  · exact timed_quiet timed wired letters rfl rfl rfl rfl rfl (List.Sublist.refl _)

theorem turns_append (before after : List NodeEvent) : turns (before ++ after) = turns before ++ turns after := by
  induction before with
  | nil => rfl
  | cons event later ih => cases event <;> simp [turns,ih]

theorem run_turns (run : Run (Steps platform) start events s) : s.ran = start.ran ++ turns events := by
  induction run with
  | nil => exact (List.append_nil _).symm
  | snoc _ taken ih =>
    rw [turns_append,← List.append_assoc,← ih]
    rcases step_parts taken with ⟨endpoint,later,bound,rfl,_,rfl⟩ | ⟨rfl,_,rfl⟩ | ⟨listener,payload,rfl,rfl⟩ |
      ⟨task,now,peerAddr,listener,payload,rfl,_,_,rfl⟩ | ⟨uuid,text,now,predict,rfl,rfl⟩ | ⟨strat,rfl,rfl⟩
    · exact (List.append_nil _).symm
    · exact (List.append_nil _).symm
    · exact (List.append_nil _).symm
    · rfl
    · exact (List.append_nil _).symm
    · exact (List.append_nil _).symm

theorem earlier_above {model : ChatModel} (ordered : InOrder model) (standard : model.sortStrategy = .standard)
    (earlier : DateTime.cmp (arrivalTime m.shipmentStatus) (arrivalTime n.shipmentStatus) = .lt) :
    ¬Before model.messages n m := by
  intro below
  have order := below.pairwise ordered
  have later : DateTime.cmp (arrivalTime n.shipmentStatus) (arrivalTime m.shipmentStatus) = .gt :=
    Std.OrientedCmp.gt_iff_lt.mpr earlier
  rw [standard] at order
  simp only [SortStrategy.cmp,standardCmp,later] at order
  cases order

theorem arrivals_advance {s : Machine} (timed : Timed s) (advances : Advances s) (before : Before s.handled first second) :
    DateTime.cmp (arrival first) (arrival second) = .lt := by
  have clock : (s.readings.map UtcNow.time).Pairwise fun a b => DateTime.cmp a b = .lt := List.pairwise_map.mpr advances
  have ordered := clock.sublist timed.stamped
  have there : Before (arrivals s) (arrival first) (arrival second) := before.map arrival
  have advanced := there.pairwise ordered
  exact advanced

theorem arrival_kept_iff (up : Up start) (run : Run (Steps platform) start events s) (advances : Advances s)
    (standard : s.node.model.sortStrategy = .standard) : ArrivalKept s ↔ InTurn events s := by
  have timed : Timed s := run.preserves (fun _ _ _ => step_timed) (up_timed up)
  have ran : s.ran = turns events := by rw [run_turns run,up.ran,List.nil_append]
  have once := timed.once
  have part := timed.turns
  rw [ran] at once part
  constructor
  · intro kept i j m n pair
    have apart : (i,m) ≠ (j,n) := fun same => absurd (congrArg Prod.fst same) (Nat.ne_of_lt pair.order)
    rcases before_total pair.first pair.second apart with before | after
    · exact (before.map Prod.fst).sublist part
    · have earlier := arrivals_advance timed advances after
      have above := earlier_above timed.inOrder standard earlier
      have different : m ≠ n := by
        rintro rfl
        have same : DateTime.cmp (arrival (j,m)) (arrival (i,m)) = .eq := DateTime.cmp_eq_iff.mpr rfl
        rw [same] at earlier
        cases earlier
      have below := (before_total (timed.displayed _ pair.first).1 (timed.displayed _ pair.second).1 different).resolve_left above
      exact absurd below (kept i j m n pair)
  · intro turn i j m n pair
    have apart : (i,m) ≠ (j,n) := fun same => absurd (congrArg Prod.fst same) (Nat.ne_of_lt pair.order)
    rcases before_total pair.first pair.second apart with before | after
    · exact earlier_above timed.inOrder standard (arrivals_advance timed advances before)
    · exact absurd ((after.map Prod.fst).sublist part) (before_asymm once (turn i j m n pair))

def upNode : Machine where
  remaining := []
  listening := [earthListener]
  node := ⟨((SocketController.new.setLocalPeer earth).setPeers [moon]).addObserver .chatModel,ChatModel.new [moon] earth⟩
  reads := []
  waiting := []
  ran := []
  handled := []
  acked := []
  readings := []

theorem upNode_up : Up upNode := ⟨rfl,List.Pairwise.nil,rfl,rfl,rfl,rfl⟩

def later : UtcNow := ⟨⟨1,500000000,by decide,by decide⟩,by decide⟩

def one : ChatMessage := ⟨ascii "4a3bf47e-401b-45d1-8b1b-a23e44321065",none,moon,ascii "one",.sent epoch.time []⟩
def two : ChatMessage := ⟨ascii "5b3bf47e-401b-45d1-8b1b-a23e44321065",none,moon,ascii "two",.sent epoch.time []⟩

def datagram (message : ChatMessage) : List UInt8 := (serializeMessage message).getD []

def inTurn : List NodeEvent :=
  [.read earthListener (datagram one),.read earthListener (datagram two),.handle 0 epoch none,.handle 1 later none]

theorem arrival_kept_inTurn : ∃ s, Run (Steps loopback) upNode inTurn s ∧ s.handled.length = 2 ∧ ArrivalKept s := by
  have done : (follow (step loopback) upNode inTurn).map (fun s => (s.reads.length,s.handled.length,s.readings,
      s.node.model.sortStrategy)) = some (2,2,[epoch,later],.standard) := by decide +kernel
  obtain ⟨s,ended,facts⟩ := Option.map_eq_some_iff.mp done
  simp only [Prod.mk.injEq] at facts
  obtain ⟨reads,handled,readings,standard⟩ := facts
  have run : Run (Steps loopback) upNode inTurn s := Run.of_follow ended
  have advances : Advances s := by
    rw [Advances,readings]
    decide +kernel
  refine ⟨s,run,handled,(arrival_kept_iff upNode_up run advances standard).mpr ?_⟩
  intro i j m n pair
  obtain ⟨_,_,_,_,_,second⟩ := pair.listener
  have inside := (List.getElem?_eq_some_iff.mp second).1
  have order := pair.order
  obtain ⟨rfl,rfl⟩ : i = 0 ∧ j = 1 := by omega
  exact List.Sublist.refl _

def swapped : List NodeEvent :=
  [.read earthListener (datagram one),.read earthListener (datagram two),.handle 1 epoch none,.handle 0 later none]

theorem swapped_tasks_swap : ∃ s, Run (Steps loopback) upNode swapped s ∧ Advances s ∧
    s.node.model.sortStrategy = .standard ∧ ¬ArrivalKept s := by
  let first := received one [moon] epoch.time later
  let second := received two [moon] epoch.time epoch
  have tasks : (follow (step loopback) upNode swapped).map (fun s => (s.reads,s.handled)) =
      some ([(earthListener,datagram one),(earthListener,datagram two)],[(1,second),(0,first)]) := by decide +kernel
  have model : (follow (step loopback) upNode swapped).map (fun s => (s.node.model.messages,s.readings,
      s.node.model.sortStrategy)) = some ([second,first],[epoch,later],.standard) := by decide +kernel
  obtain ⟨s,ended,facts⟩ := Option.map_eq_some_iff.mp tasks
  rw [ended] at model
  simp only [Option.map_some,Option.some.injEq,Prod.mk.injEq] at facts model
  obtain ⟨reads,handled⟩ := facts
  obtain ⟨messages,readings,standard⟩ := model
  refine ⟨s,Run.of_follow ended,?_,standard,fun kept => ?_⟩
  · rw [Advances,readings]
    decide +kernel
  · have pair : Successive s 0 1 first second := by
      refine ⟨Nat.zero_lt_one,⟨earthListener,datagram one,datagram two,rfl,?_,?_⟩,?_,?_⟩
      · rw [reads]; rfl
      · rw [reads]; rfl
      · rw [handled]; exact List.mem_cons_of_mem _ List.mem_cons_self
      · rw [handled]; exact List.mem_cons_self
    apply kept 0 1 first second pair
    rw [messages]
    exact List.Sublist.refl _

end DTChat.ArrivalOrder
