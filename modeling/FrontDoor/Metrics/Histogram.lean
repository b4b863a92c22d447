import FrontDoor.Number.Binary64

/-!
# Histograms

A histogram counts observations by the first of its bounds that they do not exceed, and adds them
up. An observation above every bound, or one that is not a number, is in no bucket of its own and
counts in the total only.
-/

namespace FrontDoor

/-- How many observations fell between a bound and the one before it. -/
structure Bucket where
  bound : Binary64
  count : Nat
  deriving DecidableEq

/-- What was observed: by bucket, in growing order of their bounds, in number and in sum. -/
structure Histogram where
  buckets : List Bucket
  count : Nat
  sum : Binary64
  deriving DecidableEq

namespace Histogram

def ofBounds (bounds : List Binary64) : Histogram := ⟨bounds.map (⟨·, 0⟩), 0, .zero⟩

/-- Counts a value in the first bucket that holds it. -/
def place (x : Binary64) : List Bucket → List Bucket
  | [] => []
  | b :: rest =>
    if x.le b.bound then { b with count := b.count + 1 } :: rest else b :: place x rest

def observe (h : Histogram) (x : Binary64) : Histogram :=
  ⟨place x h.buckets, h.count + 1, h.sum.add x⟩

/-- Replaces each count by the number of observations up to its bound, of which `before` are in
earlier buckets. -/
def accumulate (before : Nat) : List Bucket → List Bucket
  | [] => []
  | b :: rest => { b with count := before + b.count } :: accumulate (before + b.count) rest

/-- How many observations each bound is not exceeded by. -/
def cumulative (h : Histogram) : List Bucket := accumulate 0 h.buckets

end Histogram

end FrontDoor
