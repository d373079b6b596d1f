import Lvqr.Rtsp.Publishing
import Lvqr.Srt.Connection

set_option autoImplicit false

-- The name that was authorized and the name that is published.
namespace Lvqr.Auth

open Ingest (MediaState Publication)
open Srt (Codecs ConnectionState Served serve targetBroadcast extract_srt_names_iff)
open Ts (TS_PACKET_SIZE TsDemuxer)

-- Tables that announce one AAC stream and a frame of it, sent twice.
def stuffed (packet : Bytes) : Bytes := packet ++ List.replicate (TS_PACKET_SIZE - packet.length) 0xFF

def patPacket : Bytes :=
  stuffed [0x47, 0x40, 0x00, 0x10, 0, 0x00, 0xB0, 0x0D, 0, 1, 0xC1, 0, 0, 0, 1, 0xE1, 0x00, 0, 0, 0, 0]

def pmtPacket : Bytes :=
  stuffed [0x47, 0x41, 0x00, 0x10, 0, 0x02, 0xB0, 0x12, 0, 1, 0xC1, 0, 0, 0xE1, 0x01, 0xF0, 0, 0x0F, 0xE1, 0x01,
    0xF0, 0, 0, 0, 0, 0]

def adtsFrame : Bytes := [0xFF, 0xF1, 0x4C, 0x80, 0x01, 0x1F, 0xFC, 0xAA]

def pesPacket : Bytes :=
  stuffed ([0x47, 0x41, 0x01, 0x10, 0, 0, 1, 0xC0, 0, 16, 0x80, 0x80, 5, 0x21, 0, 1, 0, 1] ++ adtsFrame)

def audioDatagram : Bytes := patPacket ++ pmtPacket ++ pesPacket ++ pesPacket

def stereo48k : Cmaf.InitSegment := .aac ⟨[17, 144], 48000⟩ ⟨2, 48000, 2, false, false⟩

theorem adts_frame_announced (mp4 : Cmaf.Mp4Atom) (broadcast : String) (encodes : mp4 stereo48k = true) :
    ∃ ready, Srt.ensureAacInit mp4 broadcast .new adtsFrame = some ready ∧ ready.published ≠ [] := by
  have parsed : Codec.parseAsc (Srt.adtsAsc adtsFrame) = .ok ⟨2, 48000, 2, false, false⟩ := by decide
  have written : Cmaf.writeAacInitSegment mp4 ⟨Srt.adtsAsc adtsFrame, 48000⟩ = .ok stereo48k := by
    rw [Cmaf.writeAacInitSegment, parsed]
    exact if_pos encodes
  refine ⟨_, Option.map_eq_some_iff.mpr ⟨stereo48k, ?_, rfl⟩, by simp [MediaState.publish]⟩
  exact congrArg Except.toOption written

theorem audio_datagram_published (codecs : Codecs) (broadcast : String) (encodes : codecs.mp4 stereo48k = true) :
    (ConnectionState.new.receive codecs broadcast audioDatagram).media.published ≠ [] := by
  have fed : ((TsDemuxer.new.feed audioDatagram).1, (TsDemuxer.new.feed audioDatagram).2.pendingScte35) =
      ([⟨257, .aac, some 0, none, adtsFrame⟩], []) := by decide +kernel
  obtain ⟨packets, sections⟩ := Prod.mk.inj fed
  obtain ⟨ready, ensured, announced⟩ := adts_frame_announced codecs.mp4 broadcast encodes
  obtain ⟨added, published, _⟩ := MediaState.emit_all_aac_publishes broadcast 0 0 ready (Srt.adtsFrames adtsFrame)
  have processed : Srt.processPes codecs.mp4 broadcast .new ⟨257, .aac, some 0, none, adtsFrame⟩ =
      (Srt.adtsFrames adtsFrame).foldl (MediaState.emitAacFrame broadcast 0 0) ready := by
    rw [Srt.processPes, Srt.processAac, ensured]
    rfl
  simp only [ConnectionState.receive, ConnectionState.new, TsDemuxer.takeScte35Sections, packets, sections,
    List.foldl_cons, List.foldl_nil, processed, published]
  simp [announced]

theorem allowed_name_single (context : AuthContext) (broadcast : String) :
    AllowedName [context] broadcast ↔ context.Names broadcast := by
  simp [AllowedName]

theorem serve_authorized_iff (codecs : Codecs) (check : AuthProvider) (streamId : Option String)
    (encodes : codecs.mp4 stereo48k = true) :
    (∀ datagrams, (serve codecs check streamId datagrams).Authorized) ↔
      NamesBroadcast (streamId.getD "") ∨ check (extractSrt (streamId.getD "")) ≠ .allow := by
  cases decision : check (extractSrt (streamId.getD "")) with
  | deny reason => simp [serve, decision, Served.Authorized]
  | allow =>
      simp only [serve, decision, ne_eq, not_true_eq_false, or_false, ← extract_srt_names_iff]
      generalize extractSrt (streamId.getD "") = context
      constructor
      · intro authorized
        obtain ⟨publication, rest, published⟩ := List.exists_cons_of_ne_nil
          (audio_datagram_published codecs (targetBroadcast streamId context) encodes)
        have member : publication ∈ (Machine.run (ConnectionState.receive codecs (targetBroadcast streamId context))
            .new [audioDatagram]).media.published := by
          rw [Machine.run_cons, Machine.run_nil, published]
          exact List.mem_cons_self
        rw [← allowed_name_single, ← Srt.received_under codecs _ [audioDatagram] publication member]
        exact authorized [audioDatagram] publication member
      · intro names datagrams publication member
        rw [allowed_name_single, Srt.received_under codecs _ datagrams publication member]
        exact names

-- What an SRT connection publishes, whatever it sends, and what an RTSP connection
-- has published was allowed under its name exactly if the SRT stream id gives the
-- name or the connection was refused.
theorem published_names_authorized_iff (codecs : Codecs) (check : AuthProvider) (streamId : Option String)
    (inputs : List Rtsp.Input) (encodes : codecs.mp4 stereo48k = true) :
    let publisher := Machine.run (Rtsp.Publisher.step codecs.mp4) .new inputs
    ((∀ datagrams, (serve codecs check streamId datagrams).Authorized) ∧
        publisher.Authorized) ↔
      NamesBroadcast (streamId.getD "") ∨ check (extractSrt (streamId.getD "")) ≠ .allow := by
  dsimp only
  rw [← serve_authorized_iff codecs check streamId encodes]
  exact and_iff_left (Rtsp.Publisher.run_authorized codecs.mp4 inputs)

def lenient : Codecs := ⟨fun _ => true, fun _ => none⟩

theorem named_stream_published :
    (∀ datagrams, (serve lenient (fun _ => .allow) (some "r=live/cam1") datagrams).Authorized) ∧
      (Machine.run (Rtsp.Publisher.step lenient.mp4) .new []).Authorized :=
  (published_names_authorized_iff lenient (fun _ => .allow) (some "r=live/cam1") [] rfl).mpr
    (.inl ⟨"live/cam1", by decide, by decide⟩)

-- A token that opens one broadcast.
def boundToken (token : String) : Except String JwtClaims :=
  if token = "TOKEN" then .ok ⟨.publish, some "live/cam1"⟩ else .error "InvalidToken"

-- The stream id carries the token and no name, so the token's broadcast is not
-- compared with anything and the stream id itself is the name.
theorem bound_token_publishes_elsewhere :
    ¬ ∀ (codecs : Codecs) (check : AuthProvider) (streamId : Option String) (datagrams : List Bytes)
      (inputs : List Rtsp.Input),
      (serve codecs check streamId datagrams).Authorized ∧
        (Machine.run (Rtsp.Publisher.step codecs.mp4) .new inputs).Authorized := by
  intro authorized
  have held := (serve_authorized_iff lenient (jwtCheck boundToken) (some "t=TOKEN") rfl).mp fun datagrams =>
    (authorized lenient (jwtCheck boundToken) (some "t=TOKEN") datagrams []).1
  rcases held with ⟨broadcast, found, _⟩ | refused
  · have unnamed : streamidGet (parseSrtStreamid "t=TOKEN") "r" = none := by decide
    rw [Option.getD_some, unnamed] at found
    cases found
  · exact refused (by decide)

end Lvqr.Auth
