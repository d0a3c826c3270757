import Avtp.Listing

/-!
# Annotations

Annotations are a listing in machine words. They are put together by a program that names the
sections itself, so a count of quadlets can be any word, and a field any descriptor. The running
count of quadlets wraps, and so do the positions that sections and fields are moved to.

A `Listing` is the same in exact numbers. It is what there is for the octets of a buffer, whose
quadlets can be counted, and `Annotations.ofListing` has it in words.
-/

namespace Avtp

/-- A titled run of quadlets with labelled fields. -/
structure Bucket where
  title : String
  firstQuadlet : UInt64
  quadlets : UInt64
  fields : List (Descriptor × String)
  deriving DecidableEq

/-- The same bucket, `count` quadlets further behind. -/
def Bucket.behind (bucket : Bucket) (count : UInt64) : Bucket :=
  { bucket with
    firstQuadlet := bucket.firstQuadlet + count
    fields := bucket.fields.map fun field ↦ (field.1.behind count, field.2) }

/-- Buckets one behind the other. -/
structure Annotations where
  buckets : List Bucket
  /-- The number of quadlets of all buckets, as far as a word goes. -/
  quadlets : UInt64
  deriving DecidableEq

namespace Annotations

/-- Annotations of nothing. -/
def empty : Annotations := ⟨[], 0⟩

/-- Adds a bucket whose fields are placed relative to its start. -/
def push (annotations : Annotations) (title : String) (quadlets : UInt64)
    (fields : List (Descriptor × String)) : Annotations :=
  let bucket : Bucket := { title, firstQuadlet := 0, quadlets, fields }
  ⟨annotations.buckets ++ [bucket.behind annotations.quadlets], annotations.quadlets + quadlets⟩

/-- Adds the fixed part of a header. -/
def pushHeader (annotations : Annotations) (h : Header) : Annotations :=
  annotations.push h.name (.ofNat (quadletsFor h.size))
    (h.slots.map fun slot ↦ ((Header.place slot).descriptor, (Header.row slot).label))

/-- Adds quadlets without fields. -/
def pushOpaque (annotations : Annotations) (title : String) (quadlets : UInt64) : Annotations :=
  annotations.push title quadlets []

/-- Adds other annotations behind these. -/
def append (annotations other : Annotations) : Annotations :=
  ⟨annotations.buckets ++ other.buckets.map (·.behind annotations.quadlets),
    annotations.quadlets + other.quadlets⟩

/-- The annotations of a header alone. -/
def ofHeader (h : Header) : Annotations := empty.pushHeader h

end Annotations

end Avtp
