import TreeDump.Fingerprint.Md5

/-!
Fingerprints of directory listings.

A listing is fingerprinted child by child, in the order given: each child adds
its name in UTF-8, one zero byte, and its size as a little-endian 64-bit word.
Two directories whose ordered children agree in names and sizes therefore get
the same fingerprint, which is how repeated directories are recognised.
-/

namespace TreeDump.Md5

/-- Feeds one child of a listing: its name in UTF-8, one zero byte, then its size
as a little-endian 64-bit word, each as a piece of its own. -/
def Stream.feedChild (s : Stream) (name : String) (size : Nat) : Stream :=
  ((s.feed name.toUTF8.toList).feed [0]).feed (le64 size)

/-- The fingerprint of a listing of `(name, size)` children, in the given order. -/
def listingDigest (children : List (String × Nat)) : Digest :=
  (children.foldl (fun s child => s.feedChild child.1 child.2) Stream.empty).finish

end TreeDump.Md5
