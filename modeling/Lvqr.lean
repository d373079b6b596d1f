import Lvqr.Lib.Machine
import Lvqr.Lib.Decimal
import Lvqr.Hls.Interleaving
import Lvqr.Lib.Framing
import Lvqr.Ts.Pes
import Lvqr.Ts.Sections
import Lvqr.Hls.Drain
import Lvqr.Hls.Discontinuity
import Lvqr.Hls.Finality
import Lvqr.Hls.EndOfStream
import Lvqr.Hls.OpenSegment
import Lvqr.Rtp.RoundTrip
import Lvqr.Mesh.Forest
import Lvqr.Mesh.Depth
import Lvqr.Mesh.Tracks
import Lvqr.Mesh.Membership
import Lvqr.Rtmp.Tracks
import Lvqr.Fragment.Registry
import Lvqr.Rtsp.Writer
import Lvqr.Rtsp.Played
import Lvqr.Rtsp.Lifecycle
import Lvqr.Ingest.ParameterSets
import Lvqr.Ingest.Wrap
import Lvqr.Ingest.Tiling
import Lvqr.Srt.AudioClock
import Lvqr.Playback.Agreement
import Lvqr.Auth.PublishedName
import Lvqr.Egress.Republish
import Lvqr.Rtmp.Pairing
import Lvqr.Auth.StreamKeys
import Lvqr.Auth.Webhook
import Lvqr.Cluster.ClaimBridge
import Lvqr.Cluster.Lease
import Lvqr.Cluster.Release
import Lvqr.Cluster.Federation
import Lvqr.Archive.Index
import Lvqr.Archive.Rows
import Lvqr.Archive.Finalize
import Lvqr.Archive.Signed
import Lvqr.Dash.Timeline
import Lvqr.Dash.Inits
import Lvqr.Codec.Scte35
import Lvqr.Egress.AdMarkers
import Lvqr.Playback.SignedUrl
import Lvqr.Ingest.Ends
import Lvqr.Ingest.Carried
import Lvqr.Egress.InForce
import Lvqr.Hls.Seconds
import Lvqr.Hls.Timescales
import Lvqr.Hls.Master
import Lvqr.Lib.Reference
import Lvqr.Hls.Routing
import Lvqr.Hls.Site
import Lvqr.Hls.Listed
import Lvqr.Hls.Ownership
import Lvqr.Runner.Drains
import Lvqr.Runner.Coverage
import Lvqr.Hls.Conservation
import Lvqr.Hls.WallClock
import Lvqr.Hls.Skipping
import Lvqr.Lib.Paths
import Lvqr.Record.Recorder
import Lvqr.Record.Isolation
import Lvqr.Config.Provider
import Lvqr.Config.Reload
import Lvqr.Config.Atomicity
import Lvqr.Runner.Ladder
import Lvqr.Runner.Numbering
import Lvqr.Runner.Recursion
import Lvqr.Runner.Outputs
import Lvqr.Whep.Caches
import Lvqr.Whep.Joining
import Lvqr.Whep.Configured
import Lvqr.Cmaf.Conservation
import Lvqr.Cmaf.Batches
import Lvqr.Rtsp.Fmp4
import Lvqr.Codec.Burst
import Lvqr.Codec.SpliceSyntax
import Lvqr.Codec.Strictness
import Lvqr.Dash.Dates
import Lvqr.Hls.SubtitleWindow
import Lvqr.Ts.Assembly
import Lvqr.Ts.Programs
import Lvqr.Ts.TableRuns
import Lvqr.Codec.Hevc
import Lvqr.Codec.SpsSyntax
import Lvqr.Rtp.Extent
import Lvqr.Rtp.Loss
import Lvqr.Rtsp.Framing
import Lvqr.Rtsp.HeaderOrder
import Lvqr.Rtsp.TrackUrls
import Lvqr.Rtsp.AacFmtp
import Lvqr.Rtsp.AacSdp
import Lvqr.Rtmp.Flv
import Lvqr.Rtmp.InitSegment
import Lvqr.Srt.AnnexB
import Lvqr.Whip.Depack
import Lvqr.Codec.SplitStreams
import Lvqr.Whep.AnnexB
import Lvqr.Archive.Redb
import Lvqr.Archive.Refinement
import Lvqr.Archive.RangeQuery
import Lvqr.Cluster.Owners
import Lvqr.Lib.Gossip
import Lvqr.Cluster.Config
import Lvqr.Cmaf.AacConfig
import Lvqr.Lib.Writer
import Lvqr.Lib.Xml
import Lvqr.Rtmp.AudioSegment
import Lvqr.Hls.Delta
import Lvqr.Hls.DeltaText
import Lvqr.Dash.Render
import Lvqr.Dash.ReadBack
import Lvqr.Fragment.MoqTrack
import Lvqr.Record.TrackFiles
import Lvqr.Whep.ParamSets
import Lvqr.Whep.Packetizer
import Lvqr.Whisper.Asc
import Lvqr.Auth.Jwks
import Lvqr.Lib.Mux
import Lvqr.Ws.Session
import Lvqr.Lib.Window
import Lvqr.Slo.Timing
import Lvqr.Slo.Tracker
import Lvqr.Auth.MultiKey
import Lvqr.Whisper.Worker
import Lvqr.Wasm.Bridge
import Lvqr.Wasm.Counters
