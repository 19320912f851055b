/-
  NetBoard.Proofs.Settling.Network
  ────────────────────────────────
  **THE IP LAYER AND THE ECHO SERVICE SETTLE.**

  A datagram to be sent becomes a lookup, and its answer becomes fragments, of
  which there is at least one; each of them leaves in a step of its own.  What
  is received goes up or is dropped.  An echo request becomes one reply.

  Main definitions:

      Ip.Layer.Orderly               — what a step keeps of the layer
      Ip.Station.load, Icmp.Station.load
                                     — what waits in the layers and in their pipes

  Main statements:

      Ip.Station.step_settles        — a step of the IP layer settles
      Icmp.Station.step_pays         — a step of the echo service pays
-/
import NetBoard.Proofs.Datapath.Network
import NetBoard.Proofs.Ip.Fragments
import NetBoard.Proofs.Settling.Link

namespace NetBoard

open Load Outcome

/-! ## §1. The IP layer. -/

namespace Ip

/-- The places of the crossbar of protocols. -/
def crossing : Crossing where
  inbox := .ipInbox
  given := .ipGiven
  asked := .ipAsked
  outbox := .ipOutbox
  inbox_given := by decide
  inbox_asked := by decide
  asked_outbox := by decide

/-- What waits with the sender. -/
def Sending.load : Sending → Load
  | .idle => 0
  | .resolve _ => pile .unresolved 1
  | .wait _ => pile .awaiting 1
  | .send fragments => pile .fragment fragments.length

/-- All of it waits after the outbox. -/
theorem Sending.upTo {j : Place} (h : j < .unresolved) (a b : Sending) : UpTo j a.load b.load := by
  have hnone : ∀ a : Sending, ∀ i ≤ j, a.load.amount i = 0 := by
    intro a i hi
    have hi' : i < .unresolved := hi.trans_lt h
    cases a with
    | idle => rfl
    | resolve _ => exact amount_pile_of_ne hi'.ne 1
    | wait _ => exact amount_pile_of_ne (hi'.trans (by decide)).ne 1
    | send fragments => exact amount_pile_of_ne (hi'.trans (by decide)).ne _
  intro i hi
  rw [hnone a i hi]
  exact Nat.zero_le _

/-- What a step keeps of the layer: every protocol has one subscriber, and a
datagram on its way is one fragment at least. -/
structure Layer.Orderly (l : Layer) : Prop where
  distinct : l.crossbar.keys.Nodup
  size_pos : 0 < l.fragmentSize
  fragments : l.sending ≠ .send []

/-- What waits in the layer. -/
def Layer.load (l : Layer) : Load :=
  l.crossbar.load crossing l.heldIn + l.sending.load + hold .lookup l.heldLookup +
    hold .macAsked l.heldOut

/-- What waits in the pipes of one subscriber, and in the rest of the layer. -/
theorem Layer.load_setLink {l : Layer} (hl : l.Orderly) {protocol : UInt16} {old : Link Packet}
    (h : l.crossbar.link? protocol = some old) :
    ∃ rest, ∀ link : Link Packet,
      load { l with crossbar := l.crossbar.setLink protocol link } =
        rest + link.load .ipGiven .ipAsked := by
  obtain ⟨rest, hrest⟩ := Crossbar.load_setLink crossing l.heldIn hl.distinct h
  refine ⟨rest + l.sending.load + hold .lookup l.heldLookup + hold .macAsked l.heldOut,
    fun link => ?_⟩
  unfold load
  dsimp only
  rw [hrest]
  show rest + link.load .ipGiven .ipAsked + _ + _ + _ = _
  abel

/-- A fold that puts one thing on top in every step. -/
theorem length_foldl_on_top {α β γ : Type} {step : β × List γ → α → β × List γ}
    (hstep : ∀ acc x, (step acc x).2.length = acc.2.length + 1) (xs : List α) (acc : β × List γ) :
    (xs.foldl step acc).2.length = acc.2.length + xs.length := by
  induction xs generalizing acc with
  | nil => rfl
  | cons x xs ih =>
    rw [List.foldl_cons, ih, hstep, List.length_cons]
    omega

/-- Cutting a datagram uses the stage, and gives one fragment at least. -/
theorem Layer.fragment_frame {l : Layer} (hsize : 0 < l.fragmentSize) (localIp : Ipv4)
    (packet : Packet) (mac : MacAddress) :
    ∃ packetizer fragments identification stats, fragments ≠ [] ∧
      (l.fragment localIp packet mac).1 =
        { l with packetizer, sending := .send fragments, identification, stats } := by
  refine ⟨_, _, _, _, ?_, rfl⟩
  intro hnone
  -- the stage gives a frame for every part
  have hlength := congrArg List.length (List.reverse_eq_nil_iff.1 hnone)
  rw [length_foldl_on_top fun _ _ => rfl] at hlength
  have hparts : packet.headers localIp l.identification l.fragmentSize = [] :=
    List.length_eq_zero_iff.1 (by simpa using hlength)
  unfold Packet.headers at hparts
  rw [List.map_eq_nil_iff, List.zipIdx_eq_nil_iff] at hparts
  exact Packet.chunks_ne_nil packet.payload hsize hparts

namespace Station

/-- What waits in the layer and in its pipes. -/
def load (s : Station) : Load :=
  s.link.inbound.load .macGiven + s.layer.crossbar.load crossing s.layer.heldIn +
    s.layer.sending.load + lane .lookup s.layer.heldLookup s.table.lookups +
    s.table.answers.load .answer + lane .macAsked s.layer.heldOut s.link.outbound

theorem load_eq (s : Station) :
    s.load = s.layer.load + s.table.load + s.link.load .macGiven .macAsked := by
  unfold load Layer.load Arp.Table.load Link.load
  rw [lane_eq .lookup, lane_eq .macAsked]
  abel

/-- The layer of the station is in order. -/
def Orderly (s : Station) : Prop := s.layer.Orderly

variable {s : Station}

/-- What the sender turns to is later than what it leaves, and so are its pipes. -/
theorem sending_less {t : Station} {k : Place} (hk : k ≤ .awaiting)
    (hinbound : t.link.inbound = s.link.inbound)
    (hcrossbar : t.layer.crossbar.load crossing t.layer.heldIn =
      s.layer.crossbar.load crossing s.layer.heldIn)
    (hsending : Less k t.layer.sending.load s.layer.sending.load) : t.load < s.load := by
  unfold load
  rw [hinbound, hcrossbar]
  exact ((((UpTo.refl.less hsending).add (.later (hk.trans_lt (by decide)) _ _)).add
    (.later (hk.trans_lt (by decide)) _ _)).add (.later (hk.trans_lt (by decide)) _ _)).lt

theorem begin_pays (hs : s.Orderly) : Pays Orderly load s s.begin := by
  unfold begin
  dsimp only
  cases htake : s.layer.crossbar.outbox.take with
  | none => exact .idle hs
  | some taken =>
    obtain ⟨packet, outbox⟩ := taken
    dsimp only
    -- the datagram has left the outbox, whatever becomes of it
    have hless : ∀ {t : Station}, t.link = s.link → t.table = s.table →
        t.layer.crossbar = { s.layer.crossbar with outbox } → t.layer.heldIn = s.layer.heldIn →
        t.layer.heldLookup = s.layer.heldLookup → t.layer.heldOut = s.layer.heldOut →
        t.load < s.load := by
      intro t hlink htable hcrossbar hin hlookup hout
      unfold load
      rw [hlink, htable, hcrossbar, hin, hlookup, hout]
      have houtbox := Crossbar.load_outbox_less crossing s.layer.heldIn htake
      exact (((((UpTo.refl.less houtbox).add (Sending.upTo (by decide) _ _)).add .refl).add
        .refl).add .refl).lt
    have hsend : ∀ mac : MacAddress, Pays Orderly load s
        (startSending { s with
          layer := { s.layer with crossbar := { s.layer.crossbar with outbox } } } packet mac) := by
      intro mac
      obtain ⟨packetizer, fragments, identification, stats, hne, hcut⟩ :=
        Layer.fragment_frame (l := { s.layer with crossbar := { s.layer.crossbar with outbox } })
          hs.size_pos s.localIp packet mac
      unfold startSending
      dsimp only
      rw [hcut]
      refine .moved ⟨hs.distinct, hs.size_pos, fun h => hne (Sending.send.inj h)⟩ ?_
      exact hless rfl rfl rfl rfl rfl rfl
    split
    · refine .moved ⟨hs.distinct, hs.size_pos, hs.fragments⟩ ?_
      exact hless rfl rfl rfl rfl rfl rfl
    · split
      · exact hsend _
      · split
        · exact hsend _
        · refine .moved ⟨hs.distinct, hs.size_pos, nofun⟩ ?_
          exact hless rfl rfl rfl rfl rfl rfl

theorem resolve_pays (hs : s.Orderly) {packet : Packet}
    (hsending : s.layer.sending = .resolve packet) : Pays Orderly load s (s.resolve packet) := by
  unfold resolve
  split
  · exact .idle hs
  · refine .moved ⟨hs.distinct, hs.size_pos, nofun⟩ ?_
    refine sending_less (k := .unresolved) (by decide) rfl rfl ?_
    rw [hsending]
    exact .later (by decide) 1 0

theorem await_pays (hs : s.Orderly) {packet : Packet}
    (hsending : s.layer.sending = .wait packet) : Pays Orderly load s (s.await packet) := by
  unfold await
  cases s.table.answers.take with
  | none => exact .idle hs
  | some taken =>
    obtain ⟨answer, answers⟩ := taken
    dsimp only
    cases answer.mac with
    | none =>
      refine .moved ⟨hs.distinct, hs.size_pos, nofun⟩ ?_
      refine sending_less (k := .awaiting) le_rfl rfl rfl ?_
      rw [hsending]
      show Less .awaiting 0 (pile .awaiting 1)
      rw [← pile_zero .fragment]
      exact .later (by decide) 0 0
    | some mac =>
      obtain ⟨packetizer, fragments, identification, stats, hne, hcut⟩ :=
        Layer.fragment_frame (l := s.layer) hs.size_pos s.localIp packet mac
      unfold startSending
      dsimp only
      rw [hcut]
      refine .moved ⟨hs.distinct, hs.size_pos, fun h => hne (Sending.send.inj h)⟩ ?_
      refine sending_less (k := .awaiting) le_rfl rfl rfl ?_
      rw [hsending]
      exact .later (by decide) _ 0

theorem sendFragment_pays (hs : s.Orderly) {fragments : List Ethernet.Frame}
    (hsending : s.layer.sending = .send fragments) :
    Pays Orderly load s (s.sendFragment fragments) := by
  cases fragments with
  | nil => exact absurd hsending hs.fragments
  | cons frame rest =>
    unfold sendFragment
    dsimp only
    refine .moved ⟨hs.distinct, hs.size_pos, ?_⟩ ?_
    · show (if rest.isEmpty then Sending.idle else .send rest) ≠ .send []
      split
      · nofun
      · next hrest =>
        intro h
        exact hrest (List.isEmpty_iff.2 (Sending.send.inj h))
    · have hless : Less .fragment
          (Sending.load (if rest.isEmpty then Sending.idle else .send rest)) s.layer.sending.load := by
        rw [hsending]
        split
        · show Less .fragment 0 (pile .fragment (rest.length + 1))
          rw [← pile_zero .fragment]
          exact .pile (Nat.succ_pos _)
        · exact .pile (Nat.lt_succ_self _)
      exact ((((UpTo.refl.less hless).add .refl).add .refl).add (.later (by decide) _ _)).lt

theorem advance_pays (hs : s.Orderly) : Pays Orderly load s s.advance := by
  unfold advance
  cases hsending : s.layer.sending with
  | idle => exact begin_pays hs
  | resolve packet => exact resolve_pays hs hsending
  | wait packet => exact await_pays hs hsending
  | send fragments => exact sendFragment_pays hs hsending

theorem flushLookup_pays (hs : s.Orderly) : Pays Orderly load s s.flushLookup := by
  unfold flushLookup
  generalize hflush : flush s.layer.heldLookup s.table.lookups = flushed
  obtain ⟨left, heldLookup, lookups⟩ := flushed
  cases left with
  | true =>
    refine .moved ⟨hs.distinct, hs.size_pos, hs.fragments⟩ ?_
    exact (((UpTo.refl.less (lane_flush_less hflush)).add .refl).add .refl).lt
  | false =>
    obtain ⟨rfl, rfl⟩ := flush_kept hflush
    exact .idle hs

theorem transmit_pays (hs : s.Orderly) : Pays Orderly load s s.transmit := by
  rw [transmit_eq]
  exact .afterHeld .macAsked hs (fun _ _ => ⟨hs.distinct, hs.size_pos, hs.fragments⟩)
    (fun _ _ h => (UpTo.refl.less h).lt)
    fun _ ht => (flushLookup_pays ht).andThen fun _ hu => advance_pays hu

/-- Reading a frame uses the stage, and counts. -/
theorem accept_frame (l : Layer) (localIp : Ipv4) (bs : Bytes) :
    ∃ depacketizer stats, (l.accept localIp bs).1 = { l with depacketizer, stats } := by
  unfold Layer.accept
  split
  · exact ⟨_, l.stats, rfl⟩
  · exact ⟨_, _, rfl⟩

theorem receiveNext_pays (hs : s.Orderly) : Pays Orderly load s s.receiveNext := by
  unfold receiveNext
  cases htake : s.link.inbound.take with
  | none => exact .idle hs
  | some taken =>
    obtain ⟨frame, inbound⟩ := taken
    dsimp only
    obtain ⟨depacketizer, stats, haccept⟩ := accept_frame s.layer s.localIp frame.payload
    generalize s.layer.accept s.localIp frame.payload = accepted at haccept
    obtain ⟨l, packet, log⟩ := accepted
    obtain rfl : l = { s.layer with depacketizer, stats } := haccept
    have htaken := take_less (k := .macGiven) htake
    cases packet with
    | none =>
      refine .moved ⟨hs.distinct, hs.size_pos, hs.fragments⟩ ?_
      exact (((((htaken.add .refl).add .refl).add .refl).add .refl).add .refl).lt
    | some packet =>
      refine .moved ⟨hs.distinct, hs.size_pos, hs.fragments⟩ ?_
      exact (((((htaken.add (Crossbar.load_inbox_upTo (by decide))).add .refl).add .refl).add
        .refl).add .refl).lt

theorem receive_pays (hs : s.Orderly) : Pays Orderly load s s.receive := by
  rw [receive_eq]
  exact .afterHeld .ipInbox hs (fun _ _ => ⟨hs.distinct, hs.size_pos, hs.fragments⟩)
    (fun _ _ h => (((((UpTo.refl.less (Crossbar.load_inbox_less h)).add .refl).add .refl).add
      .refl).add .refl).lt)
    fun _ ht => receiveNext_pays ht

/-- One step of the crossbar. -/
def exchange (s : Station) : Outcome Station :=
  s.layer.crossbar.step.map fun crossbar =>
    { s with layer := { s.layer with unreachable := false, crossbar } }

theorem step_eq (s : Station) : s.step = (s.exchange.andThen transmit).andThen receive := rfl

theorem exchange_settles (hs : s.Orderly) : Settles Orderly load exchange s := by
  refine Settles.map (fun s : Station => s.layer.crossbar)
    (fun s crossbar => { s with layer := { s.layer with unreachable := false, crossbar } })
    (s.link.inbound.load .macGiven + s.layer.sending.load +
      lane .lookup s.layer.heldLookup s.table.lookups + s.table.answers.load .answer +
      lane .macAsked s.layer.heldOut s.link.outbound)
    (Crossbar.step_settles crossing s.layer.heldIn ⟨rfl, hs.distinct⟩)
    (fun _ h => ⟨h.distinct, hs.size_pos, hs.fragments⟩) (fun xb => ?_) rfl (fun _ => rfl)
    fun _ => rfl
  show s.link.inbound.load .macGiven + xb.load crossing s.layer.heldIn + _ + _ + _ + _ = _
  abel

/-- **A step of the IP layer settles.** -/
theorem step_settles (hs : s.Orderly) : Settles Orderly load step s :=
  ((exchange_settles hs).andThen fun _ ht => transmit_pays ht).andThen fun _ ht => receive_pays ht

/-- Without progress nothing happens outside the layer. -/
theorem step_idle (hs : s.Orderly) (hidle : s.step.progress = false) :
    ∃ layer, s.step.state = { s with layer } := by
  have hexchange := exchange_settles hs
  have hsent := transmit_pays hexchange.kept
  rw [step_eq] at hidle ⊢
  obtain ⟨hidle, hreceived⟩ :=
    Pays.andThen_state (receive_pays (hexchange.andThen fun _ ht => transmit_pays ht).kept) hidle
  obtain ⟨-, hstill⟩ := Pays.andThen_state hsent hidle
  exact ⟨_, hreceived.trans hstill⟩

end Station
end Ip

/-! ## §2. The echo service. -/

namespace Icmp

/-- What waits in the service. -/
def Echo.load (e : Echo) : Load := pile .echo e.buffer.length + hold .ipAsked e.heldOut

namespace Station

/-- What waits in the service and in its pipes. -/
def load (s : Station) : Load :=
  s.link.inbound.load .ipGiven + pile .echo s.echo.buffer.length +
    lane .ipAsked s.echo.heldOut s.link.outbound

theorem load_eq (s : Station) : s.load = s.echo.load + s.link.load .ipGiven .ipAsked := by
  unfold load Echo.load Link.load
  rw [lane_eq]
  abel

theorem replyNext_pays (s : Station) : Pays (fun _ => True) load s s.replyNext := by
  unfold replyNext
  cases hbuffer : s.echo.buffer with
  | nil => exact .idle trivial
  | cons request buffer =>
    dsimp only
    refine .moved trivial ?_
    have hfewer : buffer.length < s.echo.buffer.length := by
      rw [hbuffer]
      exact Nat.lt_succ_self _
    exact ((UpTo.refl.less (Less.pile hfewer)).add (.later (by decide) _ _)).lt

theorem reply_pays (s : Station) : Pays (fun _ => True) load s s.reply := by
  rw [reply_eq]
  exact .afterHeld .ipAsked trivial (fun _ _ => trivial) (fun _ _ h => (UpTo.refl.less h).lt)
    fun t _ => t.replyNext_pays

theorem receive_pays (s : Station) : Pays (fun _ => True) load s s.receive := by
  unfold receive
  split
  · exact .idle trivial
  · cases htake : s.link.inbound.take with
    | none => exact .idle trivial
    | some taken =>
      obtain ⟨packet, inbound⟩ := taken
      have htaken := take_less (k := .ipGiven) htake
      unfold accept
      dsimp only
      split
      · exact .moved trivial ((htaken.add (.later (by decide) _ _)).add .refl).lt
      · exact .moved trivial ((htaken.add .refl).add .refl).lt

/-- **A step of the echo service pays.** -/
theorem step_pays (s : Station) : Pays (fun _ => True) load s s.step :=
  s.reply_pays.andThen fun t _ => t.receive_pays

end Station
end Icmp
end NetBoard
