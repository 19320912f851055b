/-
  NetBoard.Proofs.Icmp.EchoReply
  ──────────────────────────────
  **THE REPLY TO AN ECHO REQUEST.**

  A reply repeats its request; only the type and the checksum differ.  The
  checksum is derived from the one the request carries, so that the words of
  the reply sum up to those of the request modulo 65535.  That makes the reply
  of a valid request valid, unless its words sum up to zero: a request that is
  zero but for type and checksum is answered by octets that are all zero, and
  the zero string is not valid.

  Main definitions:

      Asks                    — a message that is answered
      answerTo                — the answer to it

  Main statements:

      accept_eq               — all that happens with a message
      replyNext_eq            — the oldest request is answered by `answerTo`
      checksum_replyTo        — when the answer to a valid request is valid
-/
import NetBoard.Icmp.Echo
import NetBoard.Proofs.Checksum
import NetBoard.Proofs.Header.Stages

namespace NetBoard.Icmp

/-! ## §1. Requests and replies. -/

theorem header_sound : header.Sound := by decide

theorem header_covered : header.Covered := by decide

/-- The service reads and writes control messages on a bus of a supported width. -/
structure Echo.Formed (e : Echo) : Prop where
  packetizer_header : e.packetizer.header = header
  packetizer_width : SupportedWidth e.packetizer.width
  depacketizer_format : e.depacketizer.format = header
  depacketizer_width : SupportedWidth e.depacketizer.width

/-- So does every service of a board. -/
theorem Echo.formed_make {width : Nat} (hw : SupportedWidth width) (depth : Nat) :
    (Echo.make width depth).Formed :=
  ⟨rfl, hw, rfl, hw⟩

/-- What makes it work: that the octets of a bus word fit the word. -/
structure Echo.Works (e : Echo) : Prop where
  packetizer_header : e.packetizer.header = header
  packetizer_width : FitsWord e.packetizer.width
  depacketizer_format : e.depacketizer.format = header
  depacketizer_width : FitsWord e.depacketizer.width

theorem Echo.works_make {width : Nat} (hw : FitsWord width) (depth : Nat) :
    (Echo.make width depth).Works :=
  ⟨rfl, hw, rfl, hw⟩

theorem Echo.Formed.works {e : Echo} (he : e.Formed) : e.Works :=
  ⟨he.packetizer_header, he.packetizer_width.fits, he.depacketizer_format,
    he.depacketizer_width.fits⟩

/-- A message is answered if it has a header that says so. -/
def Asks (packet : Ip.Packet) : Prop :=
  8 ≤ packet.payload.length ∧ packet.payload.head? = some 8

instance : DecidablePred Asks := fun _ => inferInstanceAs (Decidable (_ ∧ _))

/-- The request buffered for a message. -/
def requestOf (packet : Ip.Packet) : Request :=
  ⟨packet.ip, header.decode (packet.payload.take 8), packet.payload.drop 8⟩

/-- The checksum a message carries. -/
def carriedChecksum (message : Bytes) : UInt16 :=
  UInt16.ofNat (Bytes.toNatBE ((message.drop 2).take 2))

/-- The answer to a message: type 0, a checksum derived from the one it
carries, and every other octet as it came. -/
def replyTo (message : Bytes) : Bytes :=
  [0] ++ (message.drop 1).take 1 ++
    Bytes.ofNatBE 2 (echoReplyChecksum (carriedChecksum message)).toNat ++ message.drop 4

/-! ## §2. What the service does with a message. -/

/-- The header of the reply, written in front of the rest of the message. -/
theorem encode_replyFields (ip : Ipv4) {message : Bytes} (hlen : 8 ≤ message.length) :
    header.encode (requestOf ⟨ip, protocol, message⟩).replyFields ++ message.drop 8 =
      replyTo message := by
  obtain ⟨t, c, k₁, k₀, a₁, a₀, b₁, b₀, rest, rfl⟩ := Bytes.exists_octets hlen
  have htype : (⟨"msgtype", 0, 0, 8⟩ : Header.Field) ∈ header.fields := by decide
  have hsum : (⟨"checksum", 2, 0, 16⟩ : Header.Field) ∈ header.fields := by decide
  have hfits : (⟨"checksum", 2, 0, 16⟩ : Header.Field).Fits 8 := by decide
  let octets : Bytes := [t, c, k₁, k₀, a₁, a₀, b₁, b₀]
  have hcarried : (header.decode octets).get "checksum" = Bytes.toNatBE [k₁, k₀] := by
    rw [Header.get_decode header_sound hsum, Header.Field.read_whole hfits rfl rfl]
    rfl
  show header.encode (((header.decode octets).set "msgtype" 0).set "checksum"
    (echoReplyChecksum (UInt16.ofNat ((header.decode octets).get "checksum"))).toNat) ++ rest = _
  rw [hcarried, Header.encode_set header_sound _ hsum, Header.encode_set header_sound _ htype,
    Header.encode_decode header_sound header_covered rfl, Header.Field.write_whole rfl rfl,
    Header.Field.write_whole rfl rfl]
  rfl

/-- The answer to a message, and where it goes. -/
def answerTo (packet : Ip.Packet) : Ip.Packet := ⟨packet.ip, protocol, replyTo packet.payload⟩

/-- The type that is read of a message is its first octet. -/
theorem msgtype_eq_echoRequest_iff {message : Bytes} (hlen : 8 ≤ message.length) :
    (header.decode (message.take 8)).get "msgtype" = echoRequest ↔ message.head? = some 8 := by
  obtain ⟨t, c, k₁, k₀, a₁, a₀, b₁, b₀, rest, rfl⟩ := Bytes.exists_octets hlen
  have hmem : (⟨"msgtype", 0, 0, 8⟩ : Header.Field) ∈ header.fields := by decide
  have hfits : (⟨"msgtype", 0, 0, 8⟩ : Header.Field).Fits 8 := by decide
  have hread : (header.decode [t, c, k₁, k₀, a₁, a₀, b₁, b₀]).get "msgtype" = t.toNat := by
    rw [Header.get_decode header_sound hmem, Header.Field.read_whole hfits rfl rfl]
    show 0 * 256 + t.toNat = t.toNat
    omega
  show (header.decode [t, c, k₁, k₀, a₁, a₀, b₁, b₀]).get "msgtype" = (8 : UInt8).toNat ↔ _
  rw [hread, UInt8.toNat_inj, List.head?_cons, Option.some_inj]

namespace Station

variable {s : Station}

/-- **All that happens with a message**: it joins the buffer, or is ignored. -/
theorem accept_eq (hs : s.echo.Works) (packet : Ip.Packet) :
    ∃ depacketizer : Depacketizer,
      depacketizer.format = header ∧ FitsWord depacketizer.width ∧
      (s.accept packet).state = { s with
        echo :=
          if Asks packet then
            { s.echo with
              depacketizer, buffer := s.echo.buffer ++ [requestOf packet]
              stats := { s.echo.stats with echoRequests := s.echo.stats.echoRequests + 1 } }
          else
            { s.echo with
              depacketizer, stats := { s.echo.stats with ignored := s.echo.stats.ignored + 1 } } } := by
  have hpos : 0 < s.echo.depacketizer.format.length := by
    rw [hs.depacketizer_format]
    decide
  obtain ⟨hformat, hwidth⟩ :=
    Depacketizer.depacketize_format _ hs.depacketizer_width hpos packet.payload
  have hmessage : (s.echo.depacketizer.depacketize packet.payload).2 =
      if packet.payload.length < 8 then none
      else some (header.decode (packet.payload.take 8), packet.payload.drop 8) := by
    rw [Depacketizer.depacketize_eq _ hs.depacketizer_width hpos, hs.depacketizer_format]
    rfl
  refine ⟨_, hformat.trans hs.depacketizer_format, hwidth.symm ▸ hs.depacketizer_width, ?_⟩
  unfold accept
  dsimp only
  rw [hmessage]
  by_cases hlen : packet.payload.length < 8
  · have hnot : ¬Asks packet := fun hasks => Nat.not_le.2 hlen hasks.1
    rw [if_pos hlen, if_neg hnot]
    rfl
  · have htype := msgtype_eq_echoRequest_iff (Nat.not_lt.1 hlen)
    rw [if_neg hlen, Option.filter_some]
    by_cases hrequest : packet.payload.head? = some 8
    · have hasks : Asks packet := ⟨Nat.not_lt.1 hlen, hrequest⟩
      rw [if_pos (by simp [htype.2 hrequest]), if_pos hasks]
      rfl
    · have hnot : ¬Asks packet := fun hasks => hrequest hasks.2
      rw [if_neg (by simpa using htype.not.2 hrequest), if_neg hnot]
      rfl

/-- The oldest request is answered. -/
theorem replyNext_eq (hs : s.echo.Works) {packet : Ip.Packet} (hlen : 8 ≤ packet.payload.length)
    {buffer : List Request} (hbuffer : s.echo.buffer = requestOf packet :: buffer) :
    s.replyNext.state =
      { echo := { s.echo with
          packetizer := { s.echo.packetizer with carry := none }
          buffer
          heldOut := (sendOrHold (answerTo packet) s.link.outbound).1
          stats := { s.echo.stats with echoReplies := s.echo.stats.echoReplies + 1 } }
        link := { s.link with
          outbound := (sendOrHold (answerTo packet) s.link.outbound).2 } } := by
  have hencoded : (s.echo.packetizer.header.encode (requestOf packet).replyFields).length =
      s.echo.packetizer.header.length := by
    rw [hs.packetizer_header]
    exact Header.length_encode header_sound _
  have hoctets : s.echo.packetizer.header.encode (requestOf packet).replyFields ++
      packet.payload.drop 8 = replyTo packet.payload := by
    rw [hs.packetizer_header]
    exact encode_replyFields packet.ip hlen
  have hpacket : s.echo.packetizer.packetize (requestOf packet).replyFields
      (requestOf packet).payload =
        ({ s.echo.packetizer with carry := none }, replyTo packet.payload) :=
    (Packetizer.packetize_eq _ hs.packetizer_width hencoded _).trans
      (congrArg (Prod.mk _) hoctets)
  unfold replyNext
  rw [hbuffer]
  dsimp only
  rw [hpacket]
  rfl

/-- An echo request joins the buffer as it is. -/
theorem accept_request (hs : s.echo.Formed) {packet : Ip.Packet}
    (hlen : 8 ≤ packet.payload.length) (htype : packet.payload.head? = some 8) :
    (s.accept packet).state.echo.buffer = s.echo.buffer ++ [requestOf packet] := by
  obtain ⟨depacketizer, -, -, haccept⟩ := accept_eq hs.works packet
  have hasks : Asks packet := ⟨hlen, htype⟩
  rw [haccept, if_pos hasks]

/-- The oldest request is answered by the reply to its message. -/
theorem replyNext_request (hs : s.echo.Formed) {packet : Ip.Packet}
    (hlen : 8 ≤ packet.payload.length) {buffer : List Request}
    (hbuffer : s.echo.buffer = requestOf packet :: buffer) :
    (s.replyNext.state.echo.heldOut, s.replyNext.state.link.outbound) =
      sendOrHold ⟨packet.ip, protocol, replyTo packet.payload⟩ s.link.outbound := by
  rw [replyNext_eq hs.works hlen hbuffer]
  rfl

end Station

/-! ## §3. When the reply is valid. -/

/-- What a message holds besides type and checksum, with zeros in the place of
the type. -/
def unchanged (message : Bytes) : Bytes := [0] ++ (message.drop 1).take 1 ++ message.drop 4

/-- The words of a reply: its checksum and what is unchanged. -/
theorem wordSum_replyTo {message : Bytes} (hlen : 8 ≤ message.length) :
    wordSum (replyTo message) =
      (echoReplyChecksum (carriedChecksum message)).toNat + wordSum (unchanged message) := by
  obtain ⟨t, c, k₁, k₀, a₁, a₀, b₁, b₀, rest, rfl⟩ := Bytes.exists_octets hlen
  show wordSum (0 :: c :: (Bytes.ofNatBE 2 _ ++ (a₁ :: a₀ :: b₁ :: b₀ :: rest))) =
    _ + wordSum (0 :: c :: a₁ :: a₀ :: b₁ :: b₀ :: rest)
  rw [wordSum, wordSum_ofNatBE (UInt16.toNat_lt _)]
  conv => rhs; rw [wordSum]
  omega

/-- Without its checksum a reply is what is unchanged. -/
theorem checksumSkipping_replyTo {message : Bytes} (hlen : 8 ≤ message.length) :
    (checksumSkipping (replyTo message) 2).toNat =
      65535 - residue (wordSum (unchanged message)) := by
  obtain ⟨t, c, k₁, k₀, a₁, a₀, b₁, b₀, rest, rfl⟩ := Bytes.exists_octets hlen
  have hblank : blankWord (replyTo (t :: c :: k₁ :: k₀ :: a₁ :: a₀ :: b₁ :: b₀ :: rest)) 2 =
      0 :: c :: 0 :: 0 :: a₁ :: a₀ :: b₁ :: b₀ :: rest := by
    unfold blankWord
    rw [if_pos (by simp [replyTo])]
    rfl
  have hzeros : wordSum (0 :: c :: 0 :: 0 :: a₁ :: a₀ :: b₁ :: b₀ :: rest) =
      wordSum (0 :: c :: a₁ :: a₀ :: b₁ :: b₀ :: rest) := by
    simp [wordSum]
  rw [checksumSkipping_eq, toNat_checksum, hblank, hzeros]
  rfl

/-- For a valid request the derived checksum complements what is unchanged,
and it is never 65535. -/
theorem derived_checksum {message : Bytes} (hlen : 8 ≤ message.length)
    (htype : message.head? = some 8) (hvalid : checksum message = 0) :
    ((echoReplyChecksum (carriedChecksum message)).toNat + wordSum (unchanged message)) % 65535 = 0
      ∧ (echoReplyChecksum (carriedChecksum message)).toNat < 65535 := by
  obtain ⟨t, c, k₁, k₀, a₁, a₀, b₁, b₀, rest, rfl⟩ := Bytes.exists_octets hlen
  obtain rfl : t = 8 := by simpa using htype
  have hk₁ := k₁.toNat_lt
  have hk₀ := k₀.toNat_lt
  have hcarried : (carriedChecksum (8 :: c :: k₁ :: k₀ :: a₁ :: a₀ :: b₁ :: b₀ :: rest)).toNat =
      k₁.toNat * 256 + k₀.toNat := by
    show (UInt16.ofNat ((0 * 256 + k₁.toNat) * 256 + k₀.toNat)).toNat = _
    rw [UInt16.toNat_ofNat']
    omega
  -- the request sums up to 0x0800, its checksum and the rest
  have hrequest := (checksum_eq_zero_iff _).mp hvalid
  have hsum : wordSum (8 :: c :: k₁ :: k₀ :: a₁ :: a₀ :: b₁ :: b₀ :: rest) =
      2048 + (k₁.toNat * 256 + k₀.toNat) +
        wordSum (0 :: c :: a₁ :: a₀ :: b₁ :: b₀ :: rest) := by
    simp only [wordSum]
    show 8 * 256 + c.toNat + _ = 2048 + _ + (0 * 256 + c.toNat + _)
    omega
  rw [hsum] at hrequest
  rw [toNat_echoReplyChecksum, hcarried]
  show (_ + wordSum (0 :: c :: a₁ :: a₀ :: b₁ :: b₀ :: rest)) % 65535 = 0 ∧ _
  split <;> omega

/-- The reply to a valid request is valid exactly if what is unchanged is not all zero. -/
theorem checksum_replyTo {message : Bytes} (hlen : 8 ≤ message.length)
    (htype : message.head? = some 8) (hvalid : checksum message = 0) :
    checksum (replyTo message) = 0 ↔ ∃ b ∈ unchanged message, b ≠ 0 := by
  obtain ⟨hmod, hlt⟩ := derived_checksum hlen htype hvalid
  rw [← wordSum_ne_zero_iff, checksum_eq_zero_iff, wordSum_replyTo hlen]
  omega

/-- The derived checksum is the one computed afresh under the same condition. -/
theorem echoReplyChecksum_eq_iff {message : Bytes} (hlen : 8 ≤ message.length)
    (htype : message.head? = some 8) (hvalid : checksum message = 0) :
    echoReplyChecksum (carriedChecksum message) = checksumSkipping (replyTo message) 2 ↔
      ∃ b ∈ unchanged message, b ≠ 0 := by
  obtain ⟨hmod, hlt⟩ := derived_checksum hlen htype hvalid
  rw [← wordSum_ne_zero_iff, ← UInt16.toNat_inj, checksumSkipping_replyTo hlen]
  unfold residue
  split <;> omega

/-- A valid echo request joins the buffer of any service, and any service at
whose head it stands answers it with type 0, the derived checksum and every
other octet as it came.  The answer is valid, with the checksum that would be
computed afresh, exactly if something besides type and checksum is not zero. -/
theorem echo_reply_valid_iff {s t : Station} (hs : s.echo.Formed) (ht : t.echo.Formed)
    (packet : Ip.Packet) (hlen : 8 ≤ packet.payload.length)
    (htype : packet.payload.head? = some 8) (hvalid : checksum packet.payload = 0) :
    (s.accept packet).state.echo.buffer = s.echo.buffer ++ [requestOf packet] ∧
      (∀ buffer, t.echo.buffer = requestOf packet :: buffer →
        (t.replyNext.state.echo.heldOut, t.replyNext.state.link.outbound) =
          sendOrHold ⟨packet.ip, protocol, replyTo packet.payload⟩ t.link.outbound) ∧
      (checksum (replyTo packet.payload) = 0 ↔ ∃ b ∈ unchanged packet.payload, b ≠ 0) ∧
      (echoReplyChecksum (carriedChecksum packet.payload) =
          checksumSkipping (replyTo packet.payload) 2 ↔
        ∃ b ∈ unchanged packet.payload, b ≠ 0) := by
  refine ⟨?_, ?_, ?_, ?_⟩
  · exact Station.accept_request hs hlen htype
  · intro buffer hbuffer
    exact Station.replyNext_request ht hlen hbuffer
  · exact checksum_replyTo hlen htype hvalid
  · exact echoReplyChecksum_eq_iff hlen htype hvalid

/-- A request that is zero but for type and checksum is valid; the octets sent
back are all zero, and their checksum is not. -/
theorem echo_reply_of_zeros :
    let request : Bytes := [8, 0, 0xf7, 0xff, 0, 0, 0, 0]
    let s : Station := ⟨Echo.make 1 1, Link.make 1⟩
    let sent := (s.accept ⟨default, protocol, request⟩).state.replyNext.state.link.outbound.items
    checksum request = 0 ∧ sent = [⟨default, protocol, [0, 0, 0, 0, 0, 0, 0, 0]⟩] ∧
      checksum (replyTo request) ≠ 0 := by
  have hformed : (Echo.make 1 1).Formed := Echo.formed_make (.inl rfl) 1
  refine ⟨by decide, by decide +kernel, ?_⟩
  intro hreply
  let station : Station := ⟨Echo.make 1 1, Link.make 1⟩
  have hiff := (echo_reply_valid_iff (s := station) (t := station) hformed hformed
    ⟨default, protocol, [8, 0, 0xf7, 0xff, 0, 0, 0, 0]⟩ (by decide) rfl (by decide)).2.2.1
  revert hiff
  rw [hreply]
  decide

end NetBoard.Icmp
