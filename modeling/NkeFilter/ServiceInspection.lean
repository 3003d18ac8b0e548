import NkeFilter.ServiceBuffers

/-!
# What is injected has been inspected

Behind every packet that reaches `sock_inject_data_in` or `sock_inject_data_out` there is, in this order, its
capture, the client taking a notification with exactly its bytes in the buffers, and a response that allows it.
Three parts of the driver come together here: the buffers keep what was copied until they are given back, the
ring hands every notification over as it was sent, and the pending queue holds a packet until it is allowed.
-/

namespace NkeFilter
open Lib NkeSocketObject NkeSocketFilter

namespace Service
open UserToKernel

/-! ### What is behind a decision -/

/-- The client took the notification of a packet and saw its bytes. -/
def Taken (socketIds : Nat → NkeSocketID) (h : List ServiceEvent)
    (n : UserToKernel.NkeSocketFilterNotification) : Prop :=
  ∃ object id mbufData isInboundData,
    List.Sublist [.captured object id mbufData isInboundData, .received n mbufData.bytes] h ∧
    Tells (socketIds object) id mbufData isInboundData n

/-- The property was in a response that the client gave after it had seen the packet. -/
def Decided (socketIds : Nat → NkeSocketID) (h : List ServiceEvent) (property : NkeSocketDataProperty) : Prop :=
  ∃ object id mbufData isInboundData n n' response,
    List.Sublist
      [.captured object id mbufData isInboundData, .received n mbufData.bytes, .responded n' response] h ∧
    Tells (socketIds object) id mbufData isInboundData n ∧ property ∈ response.properties ∧
    property.socketId = socketIds object ∧ property.dataIndex = UInt32.ofNat id

/-- The packet was captured in that direction, the client saw its bytes, and then it allowed the packet. -/
def Inspected (socketIds : Nat → NkeSocketID) (h : List ServiceEvent) (object id : Nat) (isInboundData : Bool) :
    Prop :=
  ∃ mbufData n n' response property,
    List.Sublist
      [.captured object id mbufData isInboundData, .received n mbufData.bytes, .responded n' response] h ∧
    Tells (socketIds object) id mbufData isInboundData n ∧ property ∈ response.properties ∧
    Names (socketIds object) (UInt32.ofNat id) property ∧ property.allowData ≠ 0

variable {socketIds : Nat → NkeSocketID} {sizes : Nat → Nat} {s s' : ServiceState} {h h' e : List ServiceEvent}
  {a : ServiceLabel} {object id : Nat} {isInboundData : Bool} {property : NkeSocketDataProperty}
  {n : UserToKernel.NkeSocketFilterNotification}

theorem Taken.mono (ht : Taken socketIds h n) (hsub : h.Sublist h') : Taken socketIds h' n := by
  obtain ⟨object, id, mbufData, isInboundData, hh, ht⟩ := ht
  exact ⟨object, id, mbufData, isInboundData, hh.trans hsub, ht⟩

theorem Decided.mono (hd : Decided socketIds h property) (hsub : h.Sublist h') :
    Decided socketIds h' property := by
  obtain ⟨object, id, mbufData, isInboundData, n, n', response, hh, hd⟩ := hd
  exact ⟨object, id, mbufData, isInboundData, n, n', response, hh.trans hsub, hd⟩

theorem Inspected.mono (hi : Inspected socketIds h object id isInboundData) (hsub : h.Sublist h') :
    Inspected socketIds h' object id isInboundData := by
  obtain ⟨mbufData, n, n', response, property, hh, hi⟩ := hi
  exact ⟨mbufData, n, n', response, property, hh.trans hsub, hi⟩

/-- What the client has been shown it has taken when it has the notification. -/
theorem Shown.taken {f : NkeSocketFilter} (hs : Shown socketIds h f n) :
    Taken socketIds (h ++ [.received n (n.visible f)]) n := by
  obtain ⟨object, id, mbufData, isInboundData, hc, ht, hv⟩ := hs
  rw [hv]
  exact ⟨object, id, mbufData, isInboundData, (List.singleton_sublist.2 hc).append (.refl _), ht⟩

/-- An honest client has seen the packets it decides about. -/
theorem Taken.decided {n' : UserToKernel.NkeSocketFilterNotification}
    {response : UserToKernel.NkeSocketFilterServiceResponse} (ht : Taken socketIds h n)
    (hp : property ∈ response.properties) (hid : property.socketId = n.socketId)
    (hi : property.dataIndex = n.inputoutput.dataIndex) :
    Decided socketIds (h ++ [.responded n' response]) property := by
  obtain ⟨object, id, mbufData, isInboundData, hh, ht⟩ := ht
  exact ⟨object, id, mbufData, isInboundData, n, n', response, hh.append (.refl [_]), ht, hp,
    hid.trans ht.socketId, hi.trans ht.dataIndex⟩

/-! ### The decisions of one socket -/

section Socket
variable {t t' : SocketState} {label : SocketLabel} {events : List SocketEvent} {x : SocketEvent}

/-- The steps that decide. -/
theorem decides_of_step (hs : socketMachine.step t label = some (t', events)) (hx : x ∈ events)
    (hd : x.decides) : (∃ property reached, label = .property property ∧ x = .answered property reached) ∨
      ∃ pkt rest error, t.injection = some ⟨pkt :: rest, none⟩ ∧ pkt.allowData ∧
        x = .injected pkt.id pkt.dataInbound error := by
  have hplain : (∀ x ∈ events, x.decides = false) → False := fun h => by simp [h x hx] at hd
  cases SocketState.step_inv hs with
  | @property property _ reached => exact .inl ⟨property, reached, rfl, List.mem_singleton.1 hx⟩
  | @inject _ _ pkt rest _ _ hi he =>
    obtain ⟨-, rfl⟩ := Prod.mk.inj he
    split at hx
    · cases hx
    · rename_i hskip
      obtain rfl := List.mem_singleton.1 hx
      refine .inr ⟨pkt, rest, _, hi, ?_, rfl⟩
      by_contra hn
      exact hskip (by simp [hn])
  | queue _ hq =>
    refine (hplain ?_).elim
    cases hq with
    | posted => simp [SocketEvent.decides]
    | postponed _ _ _ _ _ _ _ _ _ _ _ hevents =>
      intro x hx
      rcases List.mem_cons.1 hx with rfl | hx
      · rfl
      · rcases hevents x hx with rfl | rfl <;> rfl
  | send =>
    refine (hplain (plain_reports ?_)).elim
    split <;> simp [SocketEvent.isReport]
  | deliver hd => exact (hplain (plain_reports hd.reports)).elim
  | collect => exact (hplain (plain_taken _)).elim
  | purge => exact (hplain (plain_purge _)).elim
  | _ => exact (hplain (by simp [SocketEvent.decides])).elim

end Socket

/-! ### The events of a step -/

theorem mem_map_socket {x : SocketEvent} {object' : Nat} {events : List SocketEvent} :
    .socket object x ∈ events.map (ServiceEvent.socket object') ↔ object' = object ∧ x ∈ events := by
  rw [List.mem_map]
  constructor
  · rintro ⟨y, hy, heq⟩
    obtain ⟨rfl, rfl⟩ := ServiceEvent.socket.inj heq
    exact ⟨rfl, hy⟩
  · rintro ⟨rfl, hx⟩
    exact ⟨x, hx, rfl⟩

theorem mem_ofSocket {x : SocketEvent} :
    x ∈ h.filterMap (ServiceEvent.ofSocket object) ↔ .socket object x ∈ h := by
  rw [List.mem_filterMap]
  constructor
  · rintro ⟨y, hy, heq⟩
    unfold ServiceEvent.ofSocket at heq
    split at heq
    · split at heq
      · rename_i hobject
        obtain rfl := Option.some.inj heq
        exact hobject ▸ hy
      · cases heq
    · cases heq
  · exact fun hx => ⟨_, hx, if_pos rfl⟩

theorem mem_capturedBy {object' captures : Nat} {label : SocketLabel} {mbufData : MbufChain}
    (hc : .captured object id mbufData isInboundData ∈ capturedBy object' captures label) :
    object' = object ∧ captures = id ∧
      ∃ mbufControl flags now, label = .capture mbufData mbufControl flags isInboundData true now := by
  unfold capturedBy at hc
  split at hc
  · obtain ⟨rfl, rfl, rfl, rfl⟩ := ServiceEvent.captured.inj (List.mem_singleton.1 hc)
    exact ⟨rfl, rfl, _, _, _, rfl⟩
  · cases hc

/-- An event of a socket is of a step of it, and what is processed there was in a response. -/
theorem socket_inv {x : SocketEvent} (hs : serviceMachine.step s a = some (s', e)) (hx : .socket object x ∈ e) :
    ∃ label t events, socketMachine.step (s.objects object) label = some (t, events) ∧ x ∈ events ∧
      ∀ property, label = .property property → ∃ rest ∈ s.responses, property ∈ rest := by
  have hone : ∀ {object' label t events}, socketMachine.step (s.objects object') label = some (t, events) →
      .socket object x ∈ events.map (ServiceEvent.socket object') →
      (∀ property, label = .property property → ∃ rest ∈ s.responses, property ∈ rest) →
      ∃ label t events, socketMachine.step (s.objects object) label = some (t, events) ∧ x ∈ events ∧
        ∀ property, label = .property property → ∃ rest ∈ s.responses, property ∈ rest := by
    intro object' label t events hstep hx hproperty
    obtain ⟨rfl, hx'⟩ := mem_map_socket.1 hx
    exact ⟨label, t, events, hstep, hx', hproperty⟩
  cases ServiceState.step_inv hs with
  | socket halone hstep =>
    rcases List.mem_append.1 hx with hx | hx
    · unfold capturedBy at hx
      split at hx
      · cases List.mem_singleton.1 hx
      · cases hx
    · refine hone hstep hx ?_
      rintro property rfl
      cases halone
  | property hthread _ hstep =>
    refine hone hstep hx fun property heq => ?_
    obtain rfl := SocketLabel.property.inj heq
    exact ⟨_, List.mem_of_getElem? hthread, List.mem_cons_self ..⟩
  | copy _ _ hstep => exact hone hstep hx fun _ heq => by cases heq
  | send _ _ _ hstep => exact hone hstep hx fun _ heq => by cases heq
  | noSend _ _ hstep => exact hone hstep hx fun _ heq => by cases heq
  | deliver _ _ hstep => exact hone hstep hx fun _ heq => by cases heq
  | receive => cases List.mem_singleton.1 hx
  | respond => cases List.mem_singleton.1 hx
  | _ => cases hx

theorem captures_le (hs : serviceMachine.step s a = some (s', e)) (object : Nat) :
    (s.objects object).captures ≤ (s'.objects object).captures := by
  cases ServiceState.objects_step hs with
  | @one object' label o hstep _ hs' _ =>
    rw [hs']
    by_cases heq : object = object'
    · subst heq
      rw [Function.update_self]
      exact captures_le_of_step hstep
    · rw [Function.update_of_ne heq]
  | none hs' _ => rw [hs']

/-- A packet gets the next number. -/
theorem captured_inv {mbufData : MbufChain} (hs : serviceMachine.step s a = some (s', e))
    (hc : .captured object id mbufData isInboundData ∈ e) :
    id = (s.objects object).captures ∧ id < (s'.objects object).captures ∧
      ∀ mbufData' isInboundData', .captured object id mbufData' isInboundData' ∈ e →
        mbufData' = mbufData ∧ isInboundData' = isInboundData := by
  have hmap : ∀ {object' mbufData isInboundData} {events : List SocketEvent},
      .captured object id mbufData isInboundData ∉ events.map (ServiceEvent.socket object') := by
    simp
  cases ServiceState.step_inv hs with
  | socket _ hstep =>
    obtain ⟨rfl, rfl, mbufControl, flags, now, rfl⟩ :=
      mem_capturedBy ((List.mem_append.1 hc).resolve_right hmap)
    refine ⟨rfl, ?_, ?_⟩
    · rcases SocketState.capture_inv hstep with ⟨hnone, -⟩ | ⟨_, _, _, _, _, -, _, rfl⟩
      · cases hnone
      · rw [objects_setObject_self]
        exact Nat.lt_succ_self _
    · intro mbufData' isInboundData' hc'
      obtain ⟨-, -, _, _, _, heq⟩ := mem_capturedBy ((List.mem_append.1 hc').resolve_right hmap)
      obtain ⟨rfl, -, -, rfl, -⟩ := SocketLabel.capture.inj heq
      exact ⟨rfl, rfl⟩
  | receive => cases List.mem_singleton.1 hc
  | respond => cases List.mem_singleton.1 hc
  | event => cases hc
  | release => cases hc
  | underrun => cases hc
  | skip => cases hc
  | _ => exact absurd hc hmap

/-! ### The invariant -/

/-- No socket has captured more packets than there are indices, and no two that captured some have one
identity. -/
structure Unambiguous (socketIds : Nat → NkeSocketID) (s : ServiceState) : Prop where
  captures : ∀ object, (s.objects object).captures < 2 ^ 32
  identity : ∀ object object', 0 < (s.objects object).captures → 0 < (s.objects object').captures →
    socketIds object = socketIds object' → object = object'

theorem Unambiguous.of_step (hU : Unambiguous socketIds s') (hs : serviceMachine.step s a = some (s', e)) :
    Unambiguous socketIds s := by
  constructor
  · exact fun object => (captures_le hs object).trans_lt (hU.captures object)
  · intro object object' hpos hpos'
    exact hU.identity object object' (hpos.trans_le (captures_le hs object))
      (hpos'.trans_le (captures_le hs object'))

/-- What is behind the notifications, the properties and the injections. -/
structure Provenance (socketIds : Nat → NkeSocketID) (s : ServiceState) (h : List ServiceEvent) : Prop where
  captured : ∀ object id mbufData isInboundData, .captured object id mbufData isInboundData ∈ h →
    id < (s.objects object).captures
  once : ∀ object id mbufData mbufData' isInboundData isInboundData',
    .captured object id mbufData isInboundData ∈ h → .captured object id mbufData' isInboundData' ∈ h →
      mbufData' = mbufData ∧ isInboundData' = isInboundData
  received : ∀ n ∈ s.received, n.isData → Taken socketIds h n
  responses : ∀ rest ∈ s.responses, ∀ property ∈ rest, Decided socketIds h property
  answered : ∀ object property reached, .socket object (.answered property reached) ∈ h →
    Decided socketIds h property
  injected : Unambiguous socketIds s → ∀ object id isInboundData error h₁ h₂,
    h = h₁ ++ .socket object (.injected id isInboundData error) :: h₂ →
      Inspected socketIds h₁ object id isInboundData

/-- A packet that was allowed was decided about, and an index names one packet. -/
theorem Provenance.inspected {pkt : PendingPktQueueItem} {rest : List PendingPktQueueItem}
    (hP : Provenance socketIds s h) (hB : Buffers socketIds sizes s h) (hU : Unambiguous socketIds s)
    (hi : (s.objects object).injection = some ⟨pkt :: rest, none⟩) (hallow : pkt.allowData) :
    Inspected socketIds h object pkt.id pkt.dataInbound := by
  have hF := failClosed_of_run (hB.runs object) (hU.captures object)
  obtain ⟨h₁, h₂, hh, g₁, g₂, property, pkt', rfl, -, -, hindex, -, hnames, hnz, -⟩ :=
    hF.toInject _ hi pkt (List.mem_cons_self ..) hallow
  have hanswered : .socket object (.answered property (some pkt')) ∈ h :=
    mem_ofSocket.1 (hh ▸ by simp)
  obtain ⟨object', id', mbufData, isInboundData, n, n', response, hsub, ht, hp, hid, hdi⟩ :=
    hP.answered object property _ hanswered
  have hc : .captured object' id' mbufData isInboundData ∈ h := hsub.subset (List.mem_cons_self ..)
  have hc' := (hB.carries object).toInject _ hi pkt (List.mem_cons_self ..)
  have hlt := hP.captured _ _ _ _ hc
  have hlt' := hP.captured _ _ _ _ hc'
  -- the property names the packet, so does what it was decided on
  obtain rfl : object' = object := hU.identity object' object (Nat.zero_lt_of_lt hlt) (Nat.zero_lt_of_lt hlt')
    (hid.symm.trans hnames.socketId)
  obtain rfl : id' = pkt.id := by
    by_contra hne
    exact ofNat_ne (hlt.trans (hU.captures object')) (hlt'.trans (hU.captures object')) hne
      (hdi.symm.trans (hnames.dataIndex.trans hindex))
  obtain ⟨-, rfl⟩ := hP.once _ _ _ _ _ _ hc' hc
  exact ⟨mbufData, n, n', response, property, hsub, ht, hp, ⟨hnames.type, hnames.socketId, hdi⟩, hnz⟩

theorem Provenance.numbered {mbufData : MbufChain} (hP : Provenance socketIds s h)
    (hs : serviceMachine.step s a = some (s', e))
    (hc : .captured object id mbufData isInboundData ∈ h ++ e) : id < (s'.objects object).captures := by
  rcases List.mem_append.1 hc with hc | hc
  · exact (hP.captured _ _ _ _ hc).trans_le (captures_le hs object)
  · exact (captured_inv hs hc).2.1

/-- No number is given twice. -/
theorem Provenance.capturedOnce {mbufData mbufData' : MbufChain} {isInboundData' : Bool}
    (hP : Provenance socketIds s h) (hs : serviceMachine.step s a = some (s', e))
    (hc : .captured object id mbufData isInboundData ∈ h ++ e)
    (hc' : .captured object id mbufData' isInboundData' ∈ h ++ e) :
    mbufData' = mbufData ∧ isInboundData' = isInboundData := by
  rcases List.mem_append.1 hc with hc | hc
  · rcases List.mem_append.1 hc' with hc' | hc'
    · exact hP.once _ _ _ _ _ _ hc hc'
    · exact absurd (hP.captured _ _ _ _ hc) (captured_inv hs hc').1.not_lt
  · rcases List.mem_append.1 hc' with hc' | hc'
    · exact absurd (hP.captured _ _ _ _ hc') (captured_inv hs hc).1.not_lt
    · exact (captured_inv hs hc).2.2 _ _ hc'

/-- What the client has it had, or takes now. -/
theorem received_inv (hB : Buffers socketIds sizes s h) (hs : serviceMachine.step s a = some (s', e))
    (hn : n ∈ s'.received) (hdata : n.isData) : n ∈ s.received ∨ Taken socketIds (h ++ e) n := by
  cases ServiceState.step_inv hs with
  | receive hr =>
    obtain ⟨calls, ns, free, hO⟩ := hB.owned
    obtain ⟨-, ⟨-, hshown, -⟩ | ⟨hne, -⟩⟩ := hO.receive (e := []) hr
    · rcases List.mem_append.1 hn with hn | hn
      · exact .inl hn
      · obtain rfl := List.mem_singleton.1 hn
        exact .inr (hshown hdata).taken
    · exact absurd rfl hne
  | respond => exact .inl (List.mem_of_mem_eraseIdx hn)
  | _ => exact .inl hn

/-- The properties that are left were left before, or come with the response. -/
theorem responses_inv {rest : List NkeSocketDataProperty} (hs : serviceMachine.step s a = some (s', e))
    (hrest : rest ∈ s'.responses) (hp : property ∈ rest) : (∃ rest ∈ s.responses, property ∈ rest) ∨
      ∃ i n response, a = .respond i response ∧ s.received[i]? = some n ∧ property ∈ response.properties ∧
        e = [.responded n response] := by
  have hset : ∀ {thread : Nat} {first : NkeSocketDataProperty} {left : List NkeSocketDataProperty},
      s.responses[thread]? = some (first :: left) → rest ∈ s.responses.set thread left →
        ∃ rest ∈ s.responses, property ∈ rest := by
    intro thread first left hthread hrest
    rcases List.mem_or_eq_of_mem_set hrest with hrest | rfl
    · exact ⟨rest, hrest, hp⟩
    · exact ⟨_, List.mem_of_getElem? hthread, List.mem_cons_of_mem _ hp⟩
  cases ServiceState.step_inv hs with
  | respond hn =>
    rcases List.mem_append.1 hrest with hrest | hrest
    · exact .inl ⟨rest, hrest, hp⟩
    · obtain rfl := List.mem_singleton.1 hrest
      exact .inr ⟨_, _, _, rfl, hn, hp, rfl⟩
  | property hthread => exact .inl (hset hthread hrest)
  | skip hthread => exact .inl (hset hthread hrest)
  | _ => exact .inl ⟨rest, hrest, hp⟩

theorem split_append {x : ServiceEvent} {h₁ h₂ : List ServiceEvent} (heq : h ++ e = h₁ ++ x :: h₂) :
    (∃ post, h = h₁ ++ x :: post) ∨ x ∈ e ∧ h.Sublist h₁ := by
  rcases List.append_eq_append_iff.1 heq with ⟨pre, rfl, rfl⟩ | ⟨post, rfl, hpost⟩
  · exact .inr ⟨by simp, List.sublist_append_left ..⟩
  · rcases List.cons_eq_append_iff.1 hpost with ⟨rfl, rfl⟩ | ⟨post, rfl, -⟩
    · exact .inr ⟨List.mem_cons_self .., by simp⟩
    · exact .inl ⟨post, rfl⟩

theorem Provenance.step (hP : Provenance socketIds s h) (hB : Buffers socketIds sizes s h)
    (ha : Regular s a) (hs : serviceMachine.step s a = some (s', e)) :
    Provenance socketIds s' (h ++ e) := by
  have hleft : h.Sublist (h ++ e) := List.sublist_append_left ..
  constructor
  · exact fun object id mbufData isInboundData hc => hP.numbered hs hc
  · exact fun object id mbufData mbufData' isInboundData isInboundData' hc hc' => hP.capturedOnce hs hc hc'
  · intro n hn hdata
    rcases received_inv hB hs hn hdata with hn | ht
    · exact (hP.received n hn hdata).mono hleft
    · exact ht
  · intro rest hrest property hp
    rcases responses_inv hs hrest hp with ⟨rest, hrest, hp⟩ | ⟨i, n, response, rfl, hn, hp, rfl⟩
    · exact (hP.responses rest hrest property hp).mono hleft
    · obtain ⟨n', hn', hdata, hid, hi⟩ := (ha n hn).properties property hp
      exact (hP.received n' hn' hdata).decided hp hid hi
  · intro object property reached hx
    rcases List.mem_append.1 hx with hx | hx
    · exact (hP.answered object property reached hx).mono hleft
    · obtain ⟨label, t, events, hstep, hx, hproperty⟩ := socket_inv hs hx
      rcases decides_of_step hstep hx rfl with ⟨property, reached, rfl, heq⟩ | ⟨_, _, _, -, -, heq⟩
      · obtain ⟨rfl, -⟩ := SocketEvent.answered.inj heq
        obtain ⟨rest, hrest, hp⟩ := hproperty _ rfl
        exact (hP.responses rest hrest _ hp).mono hleft
      · cases heq
  · intro hU object id isInboundData error h₁ h₂ heq
    replace hU := hU.of_step hs
    rcases split_append heq with ⟨post, hpost⟩ | ⟨hx, hsub⟩
    · exact hP.injected hU object id isInboundData error h₁ post hpost
    · obtain ⟨label, t, events, hstep, hx, -⟩ := socket_inv hs hx
      rcases decides_of_step hstep hx rfl with ⟨_, _, -, heq⟩ | ⟨pkt, rest, error, hi, hallow, heq⟩
      · cases heq
      · obtain ⟨rfl, rfl, -⟩ := SocketEvent.injected.inj heq
        exact (hP.inspected hB hU hi hallow).mono hsub

/-! ### The result -/

/-- Nothing is injected that was not inspected, and what is about to be injected is what was captured. -/
structure OnlyInspected (socketIds : Nat → NkeSocketID) (s : ServiceState) (h : List ServiceEvent) : Prop where
  injected : ∀ object id isInboundData error h₁ h₂,
    h = h₁ ++ .socket object (.injected id isInboundData error) :: h₂ →
      Inspected socketIds h₁ object id isInboundData
  unchanged : ∀ object i, (s.objects object).injection = some i → ∀ pkt ∈ i.packetsToInject,
    .captured object pkt.id pkt.data pkt.dataInbound ∈ h
  once : ∀ object id mbufData mbufData' isInboundData isInboundData',
    .captured object id mbufData isInboundData ∈ h → .captured object id mbufData' isInboundData' ∈ h →
      mbufData' = mbufData ∧ isInboundData' = isInboundData

section Result
variable {withSize : Nat → Bool} {queueSize : UInt32} {queue : Memory} {as : List ServiceLabel}

theorem provenance_of_run (hsize : 92 ≤ queueSize.toNat) (hlt : queueSize.toNat < 2 ^ 31)
    (hC : serviceMachine.Along Regular (.start withSize queueSize queue socketIds sizes) as)
    (hr : serviceMachine.run (.start withSize queueSize queue socketIds sizes) as = some (s, h)) :
    Buffers socketIds sizes s h ∧ Provenance socketIds s h := by
  refine Machine.run_induction (fun s h => Buffers socketIds sizes s h ∧ Provenance socketIds s h) []
    ⟨buffers_start hsize hlt, ?_⟩ (fun s h a s' e hI ha hs => ?_) hC hr
  · constructor
    · exact fun _ _ _ _ hc => by cases hc
    · exact fun _ _ _ _ _ _ hc => by cases hc
    · exact fun _ hn => by cases hn
    · exact fun _ hrest => by cases hrest
    · exact fun _ _ _ hx => by cases hx
    · exact fun _ _ _ _ _ _ _ heq => by simp at heq
  · obtain ⟨hB, hP⟩ := hI
    exact ⟨hB.step ha hs, hP.step hB ha hs⟩

/-- Over every interleaving of the threads of the sockets with an honest client. -/
theorem injected_inspected (hsize : 92 ≤ queueSize.toNat) (hlt : queueSize.toNat < 2 ^ 31)
    (hC : serviceMachine.Along Regular (.start withSize queueSize queue socketIds sizes) as)
    (hr : serviceMachine.run (.start withSize queueSize queue socketIds sizes) as = some (s, h))
    (hU : Unambiguous socketIds s) : OnlyInspected socketIds s h := by
  obtain ⟨hB, hP⟩ := provenance_of_run hsize hlt hC hr
  exact ⟨hP.injected hU, fun object => (hB.carries object).toInject, hP.once⟩

/-- The packet is allowed and injected. -/
def oneInjected (n : UserToKernel.NkeSocketFilterNotification) : List ServiceLabel :=
  oneAnswered n ++ [.property 0 0, .socket 0 (.collect .NkeSocketDataAll fun _ => 0), .socket 0 (.inject 0 0)]

/-- The run, with the state the client leaves it in. -/
theorem run_oneInjected : ∃ n s₁ h₁ s h, serviceMachine.run oneSocket (oneAnswered n) = some (s₁, h₁) ∧
    OneAnswered n s₁ ∧ serviceMachine.run oneSocket (oneInjected n) = some (s, h) ∧
    .socket 0 (.injected 0 true 0) ∈ h ∧ (s.objects 0).captures = 1 ∧
    ∀ object, (s.objects (object + 1)).captures = 0 := by
  obtain ⟨n, s₁, h₁, hr₁, hanswered⟩ := run_oneAnswered
  have hobjects := hanswered.objects
  have hresponses := hanswered.responses
  obtain ⟨f, q, objects, toRelease, received, responses⟩ := s₁
  obtain rfl : objects = _ := hobjects
  obtain rfl : responses = _ := hresponses
  obtain ⟨s, h, hr, hinjected, hzero, hsucc⟩ : ∃ s h, serviceMachine.run
      ⟨f, q, oneNotifiedState.objects, toRelease, received,
        [[⟨.NkeSocketDataPropertyTypePermission, 0, ⟨0, 0⟩, 1⟩]]⟩
      [.property 0 0, .socket 0 (.collect .NkeSocketDataAll fun _ => 0), .socket 0 (.inject 0 0)] = some (s, h) ∧
      h.getLast? = some (.socket 0 (.injected 0 true 0)) ∧ (s.objects 0).captures = 1 ∧
      ∀ object, (s.objects (object + 1)).captures = 0 := ⟨_, _, rfl, rfl, rfl, fun _ => rfl⟩
  have hr' := Machine.run_append.2 ⟨_, _, _, hr₁, hr, rfl⟩
  exact ⟨n, _, h₁, s, _, hr₁, hanswered, hr', List.mem_append_right _ (List.mem_of_getLast? hinjected), hzero, hsucc⟩

theorem oneInjected_inspected : ∃ n s h, serviceMachine.run oneSocket (oneInjected n) = some (s, h) ∧
    .socket 0 (.injected 0 true 0) ∈ h ∧ OnlyInspected (fun object => ⟨0, UInt64.ofNat object⟩) s h := by
  obtain ⟨n, s₁, h₁, s, h, -, hanswered, hr, hinjected, hzero, hsucc⟩ := run_oneInjected
  refine ⟨n, s, h, hr, hinjected, injected_inspected (by decide) (by decide) ?_ hr ?_⟩
  · refine hanswered.regular.append fun _ _ _ => ?_
    exact ⟨trivial, fun _ _ _ => ⟨trivial, fun _ _ _ => ⟨trivial, fun _ _ _ => trivial⟩⟩⟩
  · have hpos : ∀ object, 0 < (s.objects object).captures → object = 0 := by
      intro object hpos
      cases object with
      | zero => rfl
      | succ object => simp [hsucc] at hpos
    constructor
    · intro object
      cases object with
      | zero => simp [hzero]
      | succ object => simp [hsucc]
    · exact fun object object' h h' _ => (hpos object h).trans (hpos object' h').symm

end Result

end Service
end NkeFilter
