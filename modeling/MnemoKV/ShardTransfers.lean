import MnemoKV.ShardInstallation
import MnemoKV.Utf8Coercion

/-!
# Sending the entries of a slot

The leader captures the entries of a slot, and JSON carries them to the replica.
JSON has no invalid text, so a key that is not UTF-8 arrives as another, longer
key; the accounted size of its entry no longer fits and the replica refuses the
transfer.  What an accepted transfer leaves in the slot is what was captured.
-/

namespace MnemoKV

/-- An entry after a round trip through JSON: the value travels in base64, the
key as a string. -/
def SnapshotEntry.overJSON (item : SnapshotEntry) : SnapshotEntry :=
  { item with key := Utf8Coercion.coerce item.key }

namespace ShardSnapshot

def overJSON (transfer : ShardSnapshot) : ShardSnapshot :=
  { transfer with entries := transfer.entries.map SnapshotEntry.overJSON }

/-- The payload contains every key, so none of an accepted one is longer than a
bulk string. -/
def fitsBulk (transfer : ShardSnapshot) : Bool :=
  transfer.entries.all fun item => decide (item.key.length ≤ Parser.maxBulkLen)

end ShardSnapshot

end MnemoKV
