import Avtp.Extent

/-!
# Views

A view is a stretch of octets under the name of a header: the octets that the header claims at the
start of a buffer. Its length is settled when it is taken and never changes, whatever is written
through it, even into the length field itself.

## Three ways to take a view

* `View.split?` cuts the claimed octets off the front of a buffer.
* `Window.over?` leaves them in the buffer, to be edited in place.
* `View.whole?` takes a buffer that holds nothing else.

All three rest on `View.size?`, and differ only in what they do with the octets behind the view.
-/

namespace Avtp

/-- Reasons why a buffer has no view of a header. -/
inductive ViewError where
  /-- The buffer ends before the part does. -/
  | bufferTooSmall (part : Part) (required actual : Nat)
  /-- The octets are there, and are not what they are meant to be. -/
  | invalidLayout (fault : LayoutError)
  /-- Octets are left over where a view was to take all of them. -/
  | sizeMismatch
  deriving DecidableEq

/-- A fault in the layout, told as the reason for having no view. -/
def ViewError.ofLayout : LayoutError → ViewError
  | .bufferTooSmall part required actual => .bufferTooSmall part required actual
  | fault => .invalidLayout fault

/-- The wording of the reason. -/
def ViewError.message : ViewError → String
  | .bufferTooSmall part required actual =>
    s!"Buffer too small at {part.name}: required {Text.decimal required}, " ++
      s!"got {Text.decimal actual}"
  | .invalidLayout fault => s!"Invalid layout: {fault.message}"
  | .sizeMismatch => "Could not convert view: Boxed buffer size does not match view size"

/-- The octets that a header claims. -/
structure View (h : Header) where
  octets : List UInt8
  deriving DecidableEq

namespace View

variable {h : Header}

/-! ### Taking a view -/

/-- The number of octets that a view takes from the start of the buffer. -/
def size? (h : Header) (buf : List UInt8) : Except ViewError Nat :=
  (h.extent? buf).mapError ViewError.ofLayout

/-- The view at the start of the buffer and the octets behind it. -/
def split? (h : Header) (buf : List UInt8) : Except ViewError (View h × List UInt8) :=
  match size? h buf with
  | .ok size => .ok (⟨buf.take size⟩, buf.drop size)
  | .error reason => .error reason

/-- The whole buffer as a view. -/
def whole? (h : Header) (buf : List UInt8) : Except ViewError (View h) :=
  match size? h buf with
  | .ok size => if buf.length = size then .ok ⟨buf⟩ else .error .sizeMismatch
  | .error reason => .error reason

/-! ### Fields -/

/-- The value of a field. -/
def read (view : View h) (slot : h.Slot) : Nat := (Header.place slot).read view.octets

/-- The value of a one-bit field. -/
def flag (view : View h) (slot : h.Slot) : Bool := view.read slot != 0

/-- The view after writing a field, refused if the field does not hold the value. -/
def assign (view : View h) (slot : h.Slot) (value : Nat) : Except FieldError (View h) :=
  (Header.set view.octets slot value).map View.mk

/-- The view after writing a field with a value that is known to fit. -/
def write (view : View h) (slot : h.Slot) (value : Nat) : View h :=
  ⟨(Header.place slot).write view.octets value⟩

@[simp] theorem length_write (view : View h) (slot : h.Slot) (value : Nat) :
    (view.write slot value).octets.length = view.octets.length :=
  BitField.length_write ..

/-! ### Payload -/

/-- The range of the octets that the header leaves to the payload. For a message with padding the
range follows the pad count and the length of the view, not the length field. It never reaches into
the header, so a pad count that is too large only leaves it empty. For a message of any type it
begins behind type and length. -/
def payloadRange : {h : Header} → View h → Nat × Nat
  | .common, view => (Header.size .common, view.octets.length)
  | .udp, view => (Header.size .udp, view.octets.length)
  | .ntscf, view => (Header.size .ntscf, view.octets.length)
  | .tscf, view => (Header.size .tscf, view.octets.length)
  | .acf, view => (2, view.octets.length)
  | .can, view => padded view (view.read CanSlot.pad)
  | .canBrief, view => padded view (view.read CanBriefSlot.pad)
  | .lin, view => padded view (view.read LinSlot.pad)
where
  /-- The range between the header and the padding. -/
  padded {h : Header} (view : View h) (padding : Nat) : Nat × Nat :=
    (h.size, max (view.octets.length - padding) h.size)

/-- The octets of the payload. -/
def payload (view : View h) : List UInt8 :=
  (Octets.slice? view.octets view.payloadRange.1 view.payloadRange.2).getD []

/-- Replaces the start of the payload by as many of the given octets as fit. -/
def writePayload (view : View h) (octets : List UInt8) : View h :=
  ⟨Octets.overlay view.octets view.payloadRange.1 view.payloadRange.2 octets⟩

/-- Replaces the start of the view, header included, by as many of the given octets as fit. -/
def writeOctets (view : View h) (octets : List UInt8) : View h :=
  ⟨Octets.overlay view.octets 0 view.octets.length octets⟩

end View

/-! ### Views in place -/

/-- A view of the first `size` octets of a buffer that may hold more. -/
structure Window (h : Header) where
  buffer : List UInt8
  size : Nat

namespace Window

variable {h : Header}

/-- The window over the octets that the header claims at the start of the buffer. -/
def over? (h : Header) (buf : List UInt8) : Except ViewError (Window h) :=
  match View.size? h buf with
  | .ok size => .ok ⟨buf, size⟩
  | .error reason => .error reason

/-- The octets in the window. -/
def view (window : Window h) : View h := ⟨window.buffer.take window.size⟩

/-- The octets behind the window. -/
def rest (window : Window h) : List UInt8 := window.buffer.drop window.size

/-- Replaces the octets in the window. -/
def replace (window : Window h) (view : View h) : Window h :=
  { window with buffer := view.octets ++ window.rest }

end Window

end Avtp
