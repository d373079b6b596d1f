import Lvqr.Lib.Machine
import Lvqr.Archive.Rows

set_option autoImplicit false

-- The end of a drain on a server that signs its archive: the asset is put together
-- from the files and signed.
namespace Lvqr.Archive

structure SignedAsset where
  assetBytes : Bytes
  manifestBytes : Bytes
deriving DecidableEq, Repr

-- What has been read goes with the row that named it.
abbrev Piece := IndexEntry × Bytes

-- The init segment is read first, then the index, then one file after another.
inductive FinalizePhase where
  | started
  | listing (init : Bytes)
  | reading (init : Bytes) (taken : List Piece) (rest : List IndexEntry)
  | signed (init : Bytes) (taken : List Piece)
  | failed
deriving DecidableEq, Repr

structure Finalizer where
  drain : Nat
  phase : FinalizePhase
deriving DecidableEq, Repr

structure SignedArchive (File : Type) where
  archive : ArchiveIndexer File
  finalizers : List Finalizer

inductive SigningOp where
  | archive (op : ArchiveOp)
  | finalize (index : Nat)
deriving DecidableEq, Repr

def assetBytes (init : Bytes) (taken : List Piece) : Bytes := init ++ (taken.map Prod.snd).flatten

def finalizedPath (archiveDir broadcast track extension : String) : String :=
  joinPath (joinPath (joinPath archiveDir broadcast) track) ("finalized." ++ extension)

namespace SignedArchive

variable {File : Type} [DecidableEq File]

def new : SignedArchive File := ⟨.new, []⟩

def setPhase (state : SignedArchive File) (index : Nat) (finalizer : Finalizer) (phase : FinalizePhase) :
    SignedArchive File :=
  { state with finalizers := state.finalizers.set index { finalizer with phase := phase } }

def fileOf (env : ArchiveDir File) (state : SignedArchive File) (path : String) : Option Bytes :=
  state.archive.files.lookup (env.resolve path)

def writeSignedPair (env : ArchiveDir File) (state : SignedArchive File) (drain : Drain) (signed : SignedAsset) :
    SignedArchive File :=
  let asset := state.archive.writeFile env (finalizedPath env.dir drain.broadcast drain.track "mp4") signed.assetBytes
  { state with
    archive := asset.writeFile env (finalizedPath env.dir drain.broadcast drain.track "c2pa") signed.manifestBytes }

-- One piece of `finalize_c2pa`. An error ends it, and nothing is signed. `sign` is
-- what the signer makes of the bytes.
def finalize (env : ArchiveDir File) (sign : Bytes → Option SignedAsset) (state : SignedArchive File) (index : Nat)
    (finalizer : Finalizer) (drain : Drain) : SignedArchive File :=
  match finalizer.phase with
  | .started =>
      match state.fileOf env (initSegmentPath env.dir drain.broadcast drain.track) with
      | some init => state.setPhase index finalizer (.listing init)
      | none => state.setPhase index finalizer .failed
  | .listing init =>
      match state.archive.index.findRange drain.broadcast drain.track 0 u64Max with
      | .ok (entry :: rest) => state.setPhase index finalizer (.reading init [] (entry :: rest))
      | .ok [] => state.setPhase index finalizer .failed
      | .error _ => state.setPhase index finalizer .failed
  | .reading init taken (entry :: rest) =>
      match state.fileOf env entry.row.path with
      | some bytes => state.setPhase index finalizer (.reading init (taken ++ [(entry, bytes)]) rest)
      | none => state.setPhase index finalizer .failed
  | .reading init taken [] =>
      match sign (assetBytes init taken) with
      | some signed => (state.setPhase index finalizer (.signed init taken)).writeSignedPair env drain signed
      | none => state.setPhase index finalizer .failed
  | .signed _ _ | .failed => state

def killed (finalizer : Finalizer) : Finalizer :=
  match finalizer.phase with
  | .signed _ _ => finalizer
  | _ => { finalizer with phase := .failed }

-- A drain that ends goes on to finalize; a restart ends what was under way.
def spawned (state : SignedArchive File) : ArchiveOp → List Finalizer
  | .close index =>
      match state.archive.drains[index]? with
      | some drain => if drain.phase = .draining then state.finalizers ++ [⟨index, .started⟩] else state.finalizers
      | none => state.finalizers
  | .restart => state.finalizers.map killed
  | _ => state.finalizers

def step (env : ArchiveDir File) (sign : Bytes → Option SignedAsset) (state : SignedArchive File) :
    SigningOp → SignedArchive File
  | .archive op => ⟨state.archive.step env op, state.spawned op⟩
  | .finalize index =>
      match state.finalizers[index]? with
      | some finalizer =>
          match state.archive.drains[finalizer.drain]? with
          | some drain => state.finalize env sign index finalizer drain
          | none => state
      | none => state

end SignedArchive

end Lvqr.Archive
