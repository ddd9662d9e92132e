/-
  The fingerprint of a resolved package: a digest of the variant and of the names, files and
  include directories of the targets. Each item is led by a byte that tells its kind.
-/
import PackagePlan.Plan.Target
import PackagePlan.Sha256

namespace PackagePlan

/-- The bytes of a text. -/
def textBytes (text : String) : List UInt8 := text.toUTF8.toList

/-- A text behind the byte of its kind. -/
def taggedBytes (tag : UInt8) (text : String) : List UInt8 := tag :: textBytes text

/-- The bytes of a target: its name, its files, its include directories. Paths are texts here. Of a
path that is none the bytes that spell nothing would all be digested as one and the same character,
so that two names which differ in nothing else would not be told apart. -/
def PlannedTarget.bytes (target : PlannedTarget) : List UInt8 :=
  taggedBytes 0 target.name
    ++ target.sources.files.flatMap (fun file => taggedBytes 1 file.text)
    ++ target.includeDirs.flatMap (fun dir => taggedBytes 2 dir.text)

/-- The bytes that a fingerprint digests. -/
def fingerprintBytes (variant : String) (targets : List PlannedTarget) : List UInt8 :=
  textBytes variant ++ targets.flatMap PlannedTarget.bytes

/-- The fingerprint of a variant and planned targets. -/
def fingerprint (variant : String) (targets : List PlannedTarget) : String :=
  Sha256.render (fingerprintBytes variant targets)

end PackagePlan
