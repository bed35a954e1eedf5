import IndraMqtt.Lib.Bytes
import IndraMqtt.Lib.ReadBuffer

/-! The frames of a BrokerLink connection and the codec that puts them on a byte stream. A frame
starts with a header of fixed length that says how many bytes of metadata and payload follow, so
that the decoder knows from the header alone whether the frame is there. -/
namespace IndraMqtt.Link

open Bytes ReadBuffer

variable {frame : BrokerFrame} {reads : List (List UInt8)} {frames : List BrokerFrame}
  {part readBuf rest src : List UInt8}

/-- What the codec and the transport report. Errors of the socket are left out. -/
inductive BrokerLinkError where
  | invalidMagic (m0 m1 : UInt8)
  | unsupportedVersion (version : UInt8)
  | unknownOpcode (raw : UInt16)
  | frameTooLarge (size limit : Nat)
  | incompleteFrame (expected available : Nat)
  | connectionClosed
  deriving DecidableEq

inductive OpCode where
  | ping
  | pong
  | bindConnection
  | sessionBinding
  | unbindConnection
  | publishIn
  | publishOut
  | pubAckIn
  | pubAckOut
  | pubRecIn
  | pubRecOut
  | pubRelIn
  | pubRelOut
  | pubCompIn
  | pubCompOut
  | subscribeIn
  | subAckOut
  | unsubscribeIn
  | unsubAckOut
  | disconnectIn
  | connClose
  | credit
  deriving DecidableEq

namespace OpCode

def toU16 : OpCode → UInt16
  | ping => 0x0001
  | pong => 0x0002
  | bindConnection => 0x0010
  | sessionBinding => 0x0011
  | unbindConnection => 0x0012
  | publishIn => 0x0020
  | publishOut => 0x0021
  | pubAckIn => 0x0022
  | pubAckOut => 0x0023
  | pubRecIn => 0x0024
  | pubRecOut => 0x0025
  | pubRelIn => 0x0026
  | pubRelOut => 0x0027
  | pubCompIn => 0x0028
  | pubCompOut => 0x0029
  | subscribeIn => 0x0030
  | subAckOut => 0x0031
  | unsubscribeIn => 0x0032
  | unsubAckOut => 0x0033
  | disconnectIn => 0x0040
  | connClose => 0x0041
  | credit => 0x0042

def tryFrom (raw : UInt16) : Except BrokerLinkError OpCode :=
  match raw.toNat with
  | 0x0001 => .ok ping
  | 0x0002 => .ok pong
  | 0x0010 => .ok bindConnection
  | 0x0011 => .ok sessionBinding
  | 0x0012 => .ok unbindConnection
  | 0x0020 => .ok publishIn
  | 0x0021 => .ok publishOut
  | 0x0022 => .ok pubAckIn
  | 0x0023 => .ok pubAckOut
  | 0x0024 => .ok pubRecIn
  | 0x0025 => .ok pubRecOut
  | 0x0026 => .ok pubRelIn
  | 0x0027 => .ok pubRelOut
  | 0x0028 => .ok pubCompIn
  | 0x0029 => .ok pubCompOut
  | 0x0030 => .ok subscribeIn
  | 0x0031 => .ok subAckOut
  | 0x0032 => .ok unsubscribeIn
  | 0x0033 => .ok unsubAckOut
  | 0x0040 => .ok disconnectIn
  | 0x0041 => .ok connClose
  | 0x0042 => .ok credit
  | _ => .error (.unknownOpcode raw)

theorem tryFrom_toU16 (opcode : OpCode) : tryFrom opcode.toU16 = .ok opcode := by
  cases opcode <;> rfl

end OpCode

def magic : List UInt8 := [0x42, 0x4C]
def protocolVersion1 : UInt8 := 1
def headerLen : Nat := 28
def defaultMaxFrameSize : Nat := 64 * 1024 * 1024

/-- `FrameHeader`. The constructor and the decoder let only the one version through. -/
structure FrameHeader where
  version : UInt8
  flags : UInt8
  opcode : OpCode
  connId : UInt64
  sequenceNo : UInt64
  metaLen : UInt16
  payloadLen : UInt32
  version_eq : version = protocolVersion1
  deriving DecidableEq

namespace FrameHeader

def new (opcode : OpCode) (connId sequenceNo : UInt64) (metaLen : UInt16) (payloadLen : UInt32) :
    FrameHeader :=
  { version := protocolVersion1, flags := 0, opcode, connId, sequenceNo, metaLen, payloadLen
    version_eq := rfl }

def totalBodyLen (header : FrameHeader) : Nat := header.metaLen.toNat + header.payloadLen.toNat

def encode (header : FrameHeader) : List UInt8 :=
  magic ++ ([header.version] ++ ([header.flags] ++ (bigEndian 2 header.opcode.toU16.toNat ++
    (bigEndian 8 header.connId.toNat ++ (bigEndian 8 header.sequenceNo.toNat ++
      (bigEndian 2 header.metaLen.toNat ++ bigEndian 4 header.payloadLen.toNat))))))

/-- `FrameHeader::decode` behind its check of the length, which is also how the codec looks at
the front of its buffer. -/
def decode (src : List UInt8) : Except BrokerLinkError FrameHeader :=
  let m0 := src.getD 0 0
  let m1 := src.getD 1 0
  if [m0, m1] ≠ magic then .error (.invalidMagic m0 m1)
  else
    let version := src.getD 2 0
    if hVersion : version = protocolVersion1 then
      match OpCode.tryFrom (UInt16.ofNat (uintAt 2 src 4)) with
      | .error reason => .error reason
      | .ok opcode =>
        .ok
          { version
            flags := src.getD 3 0
            opcode
            connId := UInt64.ofNat (uintAt 8 src 6)
            sequenceNo := UInt64.ofNat (uintAt 8 src 14)
            metaLen := UInt16.ofNat (uintAt 2 src 22)
            payloadLen := UInt32.ofNat (uintAt 4 src 24)
            version_eq := hVersion }
    else .error (.unsupportedVersion version)

@[simp] theorem length_encode (header : FrameHeader) : header.encode.length = headerLen := by
  simp [encode, magic, headerLen]

/-- A header is read back, whatever stands behind it. -/
theorem decode_encode (header : FrameHeader) (rest : List UInt8) :
    decode (header.encode ++ rest) = .ok header := by
  obtain ⟨version, flags, opcode, connId, sequenceNo, metaLen, payloadLen, rfl⟩ := header
  have hOpcode := opcode.toU16.toNat_lt
  have hConn := connId.toNat_lt
  have hSequence := sequenceNo.toNat_lt
  have hMeta := metaLen.toNat_lt
  have hPayload := payloadLen.toNat_lt
  simp (disch := omega) [decode, encode, magic, OpCode.tryFrom_toU16, List.getD_cons_zero,
    List.getD_cons_succ, -List.getD_eq_getElem?_getD]

/-- What a header says does not depend on the bytes behind it. -/
theorem decode_append (hThere : headerLen ≤ src.length) (more : List UInt8) :
    decode (src ++ more) = decode src := by
  grind [headerLen, uintAt, slice_append, decode]

end FrameHeader

/-- `BrokerFrame`. Frames are built by the constructor and by the decoder, and both write the
lengths of the two parts into the header. -/
structure BrokerFrame where
  header : FrameHeader
  metadata : List UInt8
  payload : List UInt8
  metaLen_eq : header.metaLen.toNat = metadata.length
  payloadLen_eq : header.payloadLen.toNat = payload.length
  deriving DecidableEq

namespace BrokerFrame

def new (opcode : OpCode) (connId sequenceNo : UInt64) (metadata payload : List UInt8) :
    Except BrokerLinkError BrokerFrame :=
  if hMeta : 65535 < metadata.length then .error (.frameTooLarge metadata.length 65535)
  else if hPayload : 4294967295 < payload.length then
    .error (.frameTooLarge payload.length 4294967295)
  else
    .ok
      { header := .new opcode connId sequenceNo (UInt16.ofNat metadata.length)
          (UInt32.ofNat payload.length)
        metadata
        payload
        metaLen_eq := UInt16.toNat_ofNat_of_lt' (by rw [UInt16.size]; omega)
        payloadLen_eq := UInt32.toNat_ofNat_of_lt' (by rw [UInt32.size]; omega) }

def totalFrameLen (frame : BrokerFrame) : Nat :=
  headerLen + frame.metadata.length + frame.payload.length

def encode (frame : BrokerFrame) : List UInt8 :=
  frame.header.encode ++ (frame.metadata ++ frame.payload)

theorem length_encode (frame : BrokerFrame) : frame.encode.length = frame.totalFrameLen := by
  rw [encode, List.length_append, List.length_append, FrameHeader.length_encode, totalFrameLen,
    Nat.add_assoc]

theorem totalFrameLen_eq (frame : BrokerFrame) :
    headerLen + frame.header.totalBodyLen = frame.totalFrameLen := by
  rw [FrameHeader.totalBodyLen, frame.metaLen_eq, frame.payloadLen_eq, totalFrameLen,
    Nat.add_assoc]

def behind (header : FrameHeader) (src : List UInt8)
    (hThere : headerLen + header.totalBodyLen ≤ src.length) : BrokerFrame where
  header := header
  metadata := slice src headerLen header.metaLen.toNat
  payload := slice src (headerLen + header.metaLen.toNat) header.payloadLen.toNat
  metaLen_eq := by
    rw [FrameHeader.totalBodyLen] at hThere
    exact (length_slice (by omega)).symm
  payloadLen_eq := by
    rw [FrameHeader.totalBodyLen] at hThere
    exact (length_slice (by omega)).symm

variable {header : FrameHeader} {buf : List UInt8}

theorem behind_append (hThere : headerLen + header.totalBodyLen ≤ src.length) (more : List UInt8)
    (hMore : headerLen + header.totalBodyLen ≤ (src ++ more).length) :
    behind header (src ++ more) hMore = behind header src hThere := by
  rw [FrameHeader.totalBodyLen] at hThere
  simp (disch := omega) only [behind, slice_append]

theorem behind_encode (frame : BrokerFrame) (rest : List UInt8)
    (hThere : headerLen + frame.header.totalBodyLen ≤ (frame.encode ++ rest).length) :
    behind frame.header (frame.encode ++ rest) hThere = frame := by
  obtain ⟨header, metadata, payload, hMeta, hPayload⟩ := frame
  simp [behind, encode, hMeta, hPayload]

end BrokerFrame

structure FrameCodec where
  maxFrameSize : Nat

namespace FrameCodec

def encode (codec : FrameCodec) (frame : BrokerFrame) (dst : List UInt8) :
    Except BrokerLinkError (List UInt8) :=
  if codec.maxFrameSize < frame.totalFrameLen then
    .error (.frameTooLarge frame.totalFrameLen codec.maxFrameSize)
  else .ok (dst ++ frame.encode)

/-- `FrameCodec::decode`: the frame at the front of the buffer, with the rest of it. Without a
whole frame the buffer stays as it is. -/
def decode (codec : FrameCodec) (src : List UInt8) :
    Except BrokerLinkError (Option (BrokerFrame × List UInt8)) :=
  if src.length < headerLen then .ok none
  else
    match FrameHeader.decode src with
    | .error reason => .error reason
    | .ok header =>
      let totalFrameLen := headerLen + header.totalBodyLen
      if codec.maxFrameSize < totalFrameLen then
        .error (.frameTooLarge totalFrameLen codec.maxFrameSize)
      else if hThere : totalFrameLen ≤ src.length then
        .ok (some (.behind header src hThere, src.drop totalFrameLen))
      else .ok none

variable (codec : FrameCodec)

theorem decode_of_header (hLength : headerLen ≤ src.length)
    (hHeader : FrameHeader.decode src = .ok header) : codec.decode src =
      if codec.maxFrameSize < headerLen + header.totalBodyLen then
        .error (.frameTooLarge (headerLen + header.totalBodyLen) codec.maxFrameSize)
      else if hThere : headerLen + header.totalBodyLen ≤ src.length then
        .ok (some (.behind header src hThere, src.drop (headerLen + header.totalBodyLen)))
      else .ok none := by
  rw [decode, if_neg (Nat.not_lt.mpr hLength)]
  simp [hHeader]

/-- What the decoder finds at the front of the buffer does not depend on the bytes behind it. -/
theorem decode_append (hFound : codec.decode src ≠ .ok none) (more : List UInt8) :
    codec.decode (src ++ more) =
      (codec.decode src).map (Option.map fun found => (found.1, found.2 ++ more)) := by
  by_cases hShort : src.length < headerLen
  · simp [decode, hShort] at hFound
  · have hHeader := FrameHeader.decode_append (Nat.le_of_not_lt hShort) more
    have hMore : ¬ (src ++ more).length < headerLen := by
      rw [List.length_append]
      omega
    simp only [decode, if_neg hShort, if_neg hMore, hHeader] at hFound ⊢
    cases hDecode : FrameHeader.decode src with
    | error reason => rfl
    | ok header =>
      simp only [hDecode] at hFound ⊢
      split
      · rfl
      · next hLarge =>
        rw [if_neg hLarge] at hFound
        by_cases hThere : headerLen + header.totalBodyLen ≤ src.length
        · simp [hThere, Nat.le_add_right_of_le hThere, BrokerFrame.behind_append hThere,
            List.drop_append_of_le_length hThere, Except.map]
        · exact absurd (dif_neg hThere) hFound

def Admits (frame : BrokerFrame) : Prop := frame.totalFrameLen ≤ codec.maxFrameSize

instance (frame : BrokerFrame) : Decidable (codec.Admits frame) :=
  inferInstanceAs (Decidable (_ ≤ _))

variable {codec}

/-- A frame is read back, whatever stands behind it. -/
theorem decode_encode (hFits : codec.Admits frame) (rest : List UInt8) :
    codec.decode (frame.encode ++ rest) = .ok (some (frame, rest)) := by
  have hTotal := frame.totalFrameLen_eq
  have hLength := frame.length_encode
  have hWhole : headerLen + frame.header.totalBodyLen ≤ (frame.encode ++ rest).length := by
    rw [List.length_append]
    omega
  have hHeader : FrameHeader.decode (frame.encode ++ rest) = .ok frame.header := by
    rw [BrokerFrame.encode, List.append_assoc]
    exact FrameHeader.decode_encode frame.header _
  rw [codec.decode_of_header (by omega) hHeader, if_neg (by rw [hTotal]; exact Nat.not_lt.mpr hFits),
    dif_pos hWhole, BrokerFrame.behind_encode, hTotal, ← hLength, List.drop_left]

def Incomplete (codec : FrameCodec) (part : List UInt8) : Prop :=
  part = [] ∨ ∃ frame more, codec.Admits frame ∧ frame.encode = part ++ more ∧ more ≠ []

/-- A frame that is not there in full waits in the buffer. -/
theorem decode_incomplete (hPart : Incomplete codec part) : codec.decode part = .ok none := by
  rcases hPart with rfl | ⟨frame, more, hFits, hFrame, hMore⟩
  · rfl
  · by_cases hShort : part.length < headerLen
    · exact if_pos hShort
    · -- the header is there, and it is the one of the frame
      have hLength := congrArg List.length hFrame
      have hLeft := List.length_pos_iff.mpr hMore
      have hTotal := frame.totalFrameLen_eq
      rw [frame.length_encode, List.length_append] at hLength
      have hHeader : FrameHeader.decode part = .ok frame.header := by
        rw [← FrameHeader.decode_append (Nat.le_of_not_lt hShort) more, ← hFrame]
        exact FrameHeader.decode_encode frame.header _
      rw [codec.decode_of_header (Nat.le_of_not_lt hShort) hHeader,
        if_neg (by rw [hTotal]; exact Nat.not_lt.mpr hFits), dif_neg (by omega)]

/-! ### The decoder behind a buffer -/

def look (codec : FrameCodec) (buf : List UInt8) : Look Unit BrokerFrame BrokerLinkError UInt8 :=
  match codec.decode buf with
  | .ok none => .wait
  | .ok (some (frame, rest)) => .packet () frame rest
  | .error reason => .ending () none reason

theorem look_of_none (hFound : codec.decode buf = .ok none) : codec.look buf = .wait := by
  rw [look, hFound]

theorem look_of_some (hFound : codec.decode buf = .ok (some (frame, rest))) :
    codec.look buf = .packet () frame rest := by
  rw [look, hFound]

/-- The decoder as a way to take frames off a buffer. -/
def extractor (codec : FrameCodec) : Extractor Unit BrokerFrame BrokerLinkError UInt8 where
  look _ buf := codec.look buf
  shrinks := by
    intro state buf next frame rest hLook
    rw [look] at hLook
    split at hLook
    · cases hLook
    · next hFound =>
      cases hLook
      have hHeader : 0 < headerLen := by decide
      grind [decode]
    · cases hLook
  packet_append := by
    intro state buf next frame rest hLook more
    rw [look] at hLook
    split at hLook
    · cases hLook
    · next hFound =>
      cases hLook
      rw [look, codec.decode_append (by rw [hFound]; nofun), hFound]
      rfl
    · cases hLook
  ending_append := by
    intro state buf last packet reason hLook more
    rw [look] at hLook
    split at hLook
    · cases hLook
    · cases hLook
    · next hFound =>
      cases hLook
      rw [look, codec.decode_append (by rw [hFound]; nofun), hFound]
      rfl

/-- Frames in a row are taken off the buffer one after the other. -/
theorem drain_frames (hFrames : ∀ frame ∈ frames, codec.Admits frame)
    (hPart : Incomplete codec part) :
    drain codec.extractor () (frames.flatMap BrokerFrame.encode ++ part) =
      ⟨frames, (), part, none⟩ := by
  induction frames with
  | nil => exact drain_wait codec.extractor (look_of_none (decode_incomplete hPart))
  | cons frame frames ih =>
    rw [List.forall_mem_cons] at hFrames
    have hFound := decode_encode hFrames.1 (frames.flatMap BrokerFrame.encode ++ part)
    rw [List.flatMap_cons, List.append_assoc,
      drain_packet codec.extractor (look_of_some hFound), ih hFrames.2]
    rfl

/-- `FramedTransport::send_batch`: the bytes of one write. -/
def sendBatch (codec : FrameCodec) (frames : List BrokerFrame) :
    Except BrokerLinkError (List UInt8) :=
  frames.foldlM (fun writeBuf frame => codec.encode frame writeBuf) []

theorem foldlM_encode (hFrames : ∀ frame ∈ frames, codec.Admits frame) (writeBuf : List UInt8) :
    frames.foldlM (fun writeBuf frame => codec.encode frame writeBuf) writeBuf =
      .ok (writeBuf ++ frames.flatMap BrokerFrame.encode) := by
  induction frames generalizing writeBuf with
  | nil => exact congrArg Except.ok (List.append_nil writeBuf).symm
  | cons frame frames ih =>
    rw [List.forall_mem_cons] at hFrames
    rw [List.foldlM_cons, encode, if_neg (Nat.not_lt.mpr hFrames.1), List.flatMap_cons,
      ← List.append_assoc]
    exact ih hFrames.2 _

def closed (readBuf : List UInt8) : BrokerLinkError :=
  if readBuf.isEmpty then .connectionClosed else .incompleteFrame 1 readBuf.length

/-- `FramedTransport::recv` over the reads that the socket will answer. It returns its result
with the read buffer and the reads that are left. A read without bytes is a closed socket. -/
def recv (codec : FrameCodec) (readBuf : List UInt8) (reads : List (List UInt8)) :
    Except BrokerLinkError BrokerFrame × List UInt8 × List (List UInt8) :=
  match codec.decode readBuf with
  | .error reason => (.error reason, readBuf, reads)
  | .ok (some (frame, rest)) => (.ok frame, rest, reads)
  | .ok none =>
    match reads with
    | [] => (.error (closed readBuf), readBuf, [])
    | bytes :: reads =>
      if bytes.isEmpty then (.error (closed readBuf), readBuf, reads)
      else recv codec (readBuf ++ bytes) reads

def recvMany (codec : FrameCodec) : Nat → List UInt8 → List (List UInt8) →
    Except BrokerLinkError (List BrokerFrame × List UInt8 × List (List UInt8))
  | 0, readBuf, reads => .ok ([], readBuf, reads)
  | calls + 1, readBuf, reads =>
    match codec.recv readBuf reads with
    | (.error reason, _) => .error reason
    | (.ok frame, readBuf, reads) =>
      (codec.recvMany calls readBuf reads).map fun result => (frame :: result.1, result.2)

theorem recv_of_some (hFound : codec.decode readBuf = .ok (some (frame, rest)))
    (reads : List (List UInt8)) : codec.recv readBuf reads = (.ok frame, rest, reads) := by
  rw [recv.eq_def, hFound]

theorem recv_cons {bytes : List UInt8} (hFound : codec.decode readBuf = .ok none)
    (hBytes : bytes ≠ []) (reads : List (List UInt8)) :
    codec.recv readBuf (bytes :: reads) = codec.recv (readBuf ++ bytes) reads := by
  rw [recv.eq_def, hFound]
  simp [hBytes]

/-- A call returns the frame that comes next, and what it leaves is the stream behind it. -/
theorem recv_frame (hFits : codec.Admits frame) (hReads : ∀ bytes ∈ reads, bytes ≠ [])
    (hStream : readBuf ++ reads.flatten = frame.encode ++ rest) :
    ∃ left readsLeft, codec.recv readBuf reads = (.ok frame, left, readsLeft) ∧
      left ++ readsLeft.flatten = rest ∧ ∀ bytes ∈ readsLeft, bytes ≠ [] := by
  induction reads generalizing readBuf with
  | nil =>
    rw [List.flatten_nil, List.append_nil] at hStream
    refine ⟨rest, [], recv_of_some ?_ [], List.append_nil rest, nofun⟩
    rw [hStream, decode_encode hFits]
  | cons bytes reads ih =>
    -- either the frame is in the buffer, or the buffer is a part of the frame
    rcases List.append_eq_append_iff.mp hStream with ⟨more, hFrame, hRest⟩ | ⟨left, hBuf, hRest⟩
    · grind [recv_of_some, decode_encode, Incomplete, recv_cons, decode_incomplete]
    · grind [recv_of_some, decode_encode]

/-- At the end of the stream a call reports the incomplete frame and leaves it in the buffer. -/
theorem recv_incomplete (hPart : Incomplete codec part) (hReads : ∀ bytes ∈ reads, bytes ≠ [])
    (hStream : readBuf ++ reads.flatten = part) :
    codec.recv readBuf reads = (.error (closed part), part, []) := by
  induction reads generalizing readBuf with
  | nil => simp_all [recv.eq_def, decode_incomplete]
  | cons bytes reads ih =>
    grind [Incomplete, List.append_ne_nil_of_right_ne_nil, recv_cons, decode_incomplete]

/-- As many calls as there are frames return them in their order. -/
theorem recvMany_frames (hFrames : ∀ frame ∈ frames, codec.Admits frame)
    (hReads : ∀ bytes ∈ reads, bytes ≠ [])
    (hStream : readBuf ++ reads.flatten = frames.flatMap BrokerFrame.encode ++ part) :
    ∃ left readsLeft,
      codec.recvMany frames.length readBuf reads = .ok (frames, left, readsLeft) ∧
      left ++ readsLeft.flatten = part ∧ ∀ bytes ∈ readsLeft, bytes ≠ [] := by
  induction frames generalizing readBuf reads with
  | nil => exact ⟨readBuf, reads, rfl, hStream, hReads⟩
  | cons frame frames ih =>
    rw [List.forall_mem_cons] at hFrames
    rw [List.flatMap_cons, List.append_assoc] at hStream
    obtain ⟨next, readsNext, hCall, hNext, hReadsNext⟩ := recv_frame hFrames.1 hReads hStream
    obtain ⟨left, readsLeft, hCalls, hLeft, hReadsLeft⟩ := ih hFrames.2 hReadsNext hNext
    refine ⟨left, readsLeft, ?_, hLeft, hReadsLeft⟩
    rw [List.length_cons, recvMany, hCall]
    simp only [hCalls]
    rfl

/-- However a stream of frames is cut into reads, the decoder gives exactly these frames in
their order and keeps what is there of the next one. The transport returns the same frames, one
for each call. -/
theorem frames_in_any_chunks (codec : FrameCodec) (frames : List BrokerFrame)
    (hFrames : ∀ frame ∈ frames, codec.Admits frame) :
    ∃ stream, codec.sendBatch frames = .ok stream ∧
      ∀ part, Incomplete codec part → ∀ chunks : List (List UInt8),
        chunks.flatten = stream ++ part →
          chunks.foldl (feed codec.extractor) (.start ()) = ⟨frames, (), part, none⟩ ∧
          ((∀ bytes ∈ chunks, bytes ≠ []) →
            ∃ readBuf reads,
              codec.recvMany frames.length [] chunks = .ok (frames, readBuf, reads) ∧
              codec.recv readBuf reads = (.error (closed part), part, [])) := by
  refine ⟨frames.flatMap BrokerFrame.encode, foldlM_encode hFrames [], ?_⟩
  intro part hPart chunks hChunks
  have hDrain := drain_frames hFrames hPart
  constructor
  · cases chunks with
    | nil =>
      rw [← hChunks] at hDrain
      exact (drain_wait codec.extractor (look_of_none rfl)).symm.trans hDrain
    | cons bytes chunks =>
      rw [foldl_feed, hChunks]
      exact congrArg (Extraction.after []) hDrain
  · intro hReads
    obtain ⟨readBuf, reads, hCalls, hLeft, hReadsLeft⟩ :=
      recvMany_frames hFrames hReads (by rwa [List.nil_append])
    exact ⟨readBuf, reads, hCalls, recv_incomplete hPart hReadsLeft hLeft⟩

def pingFrame : BrokerFrame :=
  ⟨.new .ping 7 1 0 0, [], [], rfl, rfl⟩

def subscribeFrame : BrokerFrame :=
  ⟨.new .subscribeIn 7 2 2 3, [0, 1], [10, 20, 30], rfl, rfl⟩

/-- Two whole frames and a third without its last byte, read in two pieces. -/
theorem two_frames_in_two_chunks :
    ∃ stream, (FrameCodec.mk 64).sendBatch [pingFrame, subscribeFrame] = .ok stream ∧
      [stream.take 30, stream.drop 30 ++ subscribeFrame.encode.take 32].foldl
          (feed (FrameCodec.mk 64).extractor) (.start ()) =
        ⟨[pingFrame, subscribeFrame], (), subscribeFrame.encode.take 32, none⟩ := by
  obtain ⟨stream, hSent, hFeed⟩ :=
    frames_in_any_chunks (FrameCodec.mk 64) [pingFrame, subscribeFrame] (by decide)
  refine ⟨stream, hSent, ?_⟩
  have hPart : Incomplete (FrameCodec.mk 64) (subscribeFrame.encode.take 32) :=
    Or.inr ⟨subscribeFrame, [30], by decide, by decide, by decide⟩
  grind [List.take_append_drop]

end FrameCodec

end IndraMqtt.Link
