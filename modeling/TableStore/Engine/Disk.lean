import TableStore.Engine.Basic

/-!
# The disk engine

An ordered map of bytes that outlives the program. It keeps no snapshots, so a
transaction that reads from it sees the latest commit, and a walk shows the rows of the
time when its first row is asked for. How rows reach the disk is the business of the
program around the store.
-/

namespace TableStore

/-- An engine whose rows are kept in a directory. -/
structure DiskEngine where
  /-- What is stored. -/
  rows : Rows := .empty

instance : StorageEngine DiskEngine where
  name _ := "sled"
  rows engine := engine.rows
  get engine key := .ok (engine.rows.get? key)
  scan engine range order :=
    .ok (if range.isEmpty then [] else (engine.rows.within range order).map .ok)
  walksLate _ := true
  write engine batch _ := (.ok (), { engine with rows := batch.applyTo engine.rows })
  snapshot _ := .ok none
  flush _ := .ok ()

end TableStore
