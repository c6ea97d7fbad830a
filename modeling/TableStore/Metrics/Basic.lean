/-!
# What a store counts

Totals since the store was opened, the number of its tables, and two collections of
durations. A duration is counted in microseconds.

A pure step takes no time, so the library itself adds durations of zero; a program
that measures adds what it measured.
-/

namespace TableStore

/-- Durations in microseconds, the latest first. -/
structure Histogram where
  samples : List Nat := []
  deriving DecidableEq, Repr

namespace Histogram

/-- Add a duration. -/
def observe (h : Histogram) (micros : Nat) : Histogram := ⟨micros :: h.samples⟩

/-- Number of durations. -/
def count (h : Histogram) : Nat := h.samples.length

/-- Number of durations up to a bound. -/
def upTo (h : Histogram) (bound : Nat) : Nat := h.samples.countP (· ≤ bound)

/-- All durations together. -/
def sum (h : Histogram) : Nat := h.samples.foldr (· + ·) 0

end Histogram

/-- The numbers of one repository. -/
structure Metrics where
  /-- Commits that succeeded. -/
  commits : Nat := 0
  /-- Transactions that were rolled back, or dropped while active. -/
  rollbacks : Nat := 0
  /-- Commits that failed while they held the writer lock. -/
  failures : Nat := 0
  /-- Rows put by commits. -/
  written : Nat := 0
  /-- Rows deleted by commits. -/
  deleted : Nat := 0
  /-- Registered tables. -/
  tables : Int := 0
  /-- Time taken by commits that succeeded. -/
  commitDuration : Histogram := {}
  /-- Time spent waiting for the writer lock, whether it was gained or not. -/
  writerWait : Histogram := {}
  deriving DecidableEq, Repr

end TableStore
