import Avtp.View.Access

/-!
# Messages by type

A walk yields messages of any type. A message of a type with a known header can be taken as what it
is; the view then covers the whole message, since both measure the same length. A message that
claims such a type and is too short for its header or for its padding is an error, not a message of
another type.
-/

namespace Avtp

namespace AcfView

/-- The extent of the message. -/
def extent? (view : AcfView) : Except LayoutError Acf.MessageExtent :=
  Acf.MessageExtent.ofOctets? view.octets

/-- The message as one of a known format. -/
def as? (view : AcfView) (format : Acf.MessageFormat) : Except ViewError (View format.header) :=
  (View.split? format.header view.octets).map Prod.fst

end AcfView

namespace Acf

/-- A message under the header of its type. -/
inductive TypedMessage where
  | can (view : CanView)
  | canBrief (view : CanBriefView)
  | lin (view : LinView)
  /-- A type without a known header. -/
  | other (view : AcfView)

/-- The message under the header of its type. -/
def TypedMessage.ofView? (view : AcfView) : Except ViewError TypedMessage :=
  match view.msgType with
  | .can => (view.as? .can).map .can
  | .canBrief => (view.as? .canBrief).map .canBrief
  | .lin => (view.as? .lin).map .lin
  | _ => .ok (.other view)

end Acf

end Avtp
