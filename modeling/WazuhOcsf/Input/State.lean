import Mathlib.Data.Nat.Notation

/-!
# The persisted position

`input/state.rs`: the inode and byte offset saved after a flush, and the messages
that carry lines and their offsets from the reader to the main loop.
-/

namespace WazuhOcsf

/-- Inode of the tailed file and byte offset after the last flushed line; all zero
when nothing was saved. -/
structure TailState where
  inode : ℕ
  offset : ℕ
  deriving DecidableEq, Inhabited

/-- A line in the channel with the byte offset at its end.  `source` says which
generation of the alerts file it was read from; no step of the program looks at it. -/
structure Message where
  offset : ℕ
  line : String
  source : ℕ
  deriving DecidableEq

end WazuhOcsf
