import Avtp.Extent

/-!
# Listings

A listing names what a buffer holds, quadlet by quadlet. It is a sequence of sections, each with a
title, a number of quadlets, and labelled fields. Sections follow each other without gaps: every new
section starts where the last one ended, and its fields, given relative to the section, are moved
there. So a listing can be put together from the listings of its parts.

The listing of a header comes from its table. An opaque section has quadlets and no fields.

The numbers here are exact, as what is listed are the quadlets of a buffer. A program that names the
sections itself counts in machine words, and its listings are `Annotations`.
-/

namespace Avtp

/-- A titled run of quadlets with labelled fields. -/
structure Section where
  title : String
  firstQuadlet : Nat
  quadlets : Nat
  fields : List (BitField × String)
  deriving DecidableEq

/-- The same section, `count` quadlets further behind. -/
def Section.behind (part : Section) (count : Nat) : Section :=
  { part with
    firstQuadlet := part.firstQuadlet + count
    fields := part.fields.map fun field ↦ (field.1.behind count, field.2) }

/-- Sections one behind the other. -/
structure Listing where
  sections : List Section
  /-- The number of quadlets of all sections. -/
  quadlets : Nat
  deriving DecidableEq

namespace Listing

/-- The listing of nothing. -/
def empty : Listing := ⟨[], 0⟩

/-- Adds a section whose fields are placed relative to its start. -/
def push (listing : Listing) (title : String) (quadlets : Nat) (fields : List (BitField × String)) :
    Listing :=
  let part : Section := { title, firstQuadlet := 0, quadlets, fields }
  ⟨listing.sections ++ [part.behind listing.quadlets], listing.quadlets + quadlets⟩

/-- Adds the fixed part of a header. -/
def pushHeader (listing : Listing) (h : Header) : Listing :=
  listing.push h.name (quadletsFor h.size)
    (h.slots.map fun slot ↦ (Header.place slot, (Header.row slot).label))

/-- Adds quadlets without fields. -/
def pushOpaque (listing : Listing) (title : String) (quadlets : Nat) : Listing :=
  listing.push title quadlets []

/-- Adds another listing behind this one. -/
def append (listing other : Listing) : Listing :=
  ⟨listing.sections ++ other.sections.map (·.behind listing.quadlets),
    listing.quadlets + other.quadlets⟩

/-- The listing of a header alone. -/
def ofHeader (h : Header) : Listing := empty.pushHeader h

end Listing

/-- The listing of a message: the header of its type, or the shared header if the message is too
short for that, and then the rest of the message. It has as many quadlets as the message. -/
def Acf.MessageExtent.listing (extent : Acf.MessageExtent) : Listing :=
  let header : Header :=
    match extent.type with
    | .can => if Header.size .can ≤ extent.length then .can else .acf
    | .canBrief => if Header.size .canBrief ≤ extent.length then .canBrief else .acf
    | .lin => if Header.size .lin ≤ extent.length then .lin else .acf
    | _ => .acf
  let front := Listing.ofHeader header
  let remaining := quadletsFor extent.length - front.quadlets
  if remaining = 0 then front else front.pushOpaque "AcfPayload" remaining

end Avtp
