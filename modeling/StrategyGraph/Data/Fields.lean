import StrategyGraph.Data.Datum

/-!
# Fields of a record

A value with named fields is read from a record by name, or from a list by
position. By name, fields that the layout does not know are ignored and known
ones may not be repeated. By position, there may be fewer items than fields but
not more.

One of several variants is chosen by a tag: a member of the record, or the
first item of the list. What is left holds the fields of the variant. Since the
tag may come last, the fields are kept until it is known. All of them have to be
readable then, also those that are ignored in the end, and the values among them
may be given in a few more ways than values that stand by themselves.
-/

namespace StrategyGraph

/-- Where a value stands. -/
inductive Standing where
  /-- Outside of all tagged values. -/
  | outer
  /-- Among the fields of a tagged value. -/
  | inner

/-- What a value with fields was given as. -/
inductive Fields where
  | named (members : List (String × Datum))
  | positional (items : List Datum)

/-- What was given for one field. -/
inductive Slot where
  /-- A record without a member of this name. -/
  | unnamed
  /-- A list that ends before this field. -/
  | cutOff
  | given (datum : Datum)

namespace Slot

/-- A field that has to be given. -/
def required (read : Datum -> Option Value) : Slot -> Option Value
  | .given datum => read datum
  | _ => none

/-- A field that may be left out. -/
def optional (fallback : Value) (read : Datum -> Option Value) : Slot -> Option Value
  | .given datum => read datum
  | _ => some fallback

/-- A field that a record may leave out, but not a list. -/
def omissible (fallback : Value) (read : Datum -> Option Value) : Slot -> Option Value
  | .given datum => read datum
  | .unnamed => some fallback
  | .cutOff => none

end Slot

namespace Fields

/-- The fields of a datum that is a record or a list. -/
def ofDatum? : Datum -> Option Fields
  | .record members => some (.named members)
  | .list items => some (.positional items)
  | _ => none

/-- The fields of a datum that is a record. -/
def ofRecord? : Datum -> Option Fields
  | .record members => some (.named members)
  | _ => none

/-- Number of members of one name. -/
def occurrences (members : List (String × Datum)) (name : String) : Nat :=
  (members.filter fun member => member.1 == name).length

/-- Whether the fields fit a layout: no known name twice, no item too many. -/
def fits (layout : List String) : Fields -> Bool
  | .named members => layout.all fun name => occurrences members name <= 1
  | .positional items => items.length <= layout.length

/-- What was given for a field of a layout. -/
def slot (layout : List String) (name : String) : Fields -> Slot
  | .named members =>
      match members.find? (fun member => member.1 == name) with
      | some member => .given member.2
      | none => .unnamed
  | .positional items =>
      match items[layout.idxOf name]? with
      | some item => .given item
      | none => .cutOff

/-- The tag of a variant and the fields that remain. -/
def tagged? (tag : String) : Fields -> Option (Datum × Fields)
  | .named members =>
      match members.filter (fun member => member.1 == tag) with
      | [(_, datum)] =>
          some (datum, .named (members.filter fun member => member.1 != tag))
      | _ => none
  | .positional (datum :: items) => some (datum, .positional items)
  | .positional [] => none

end Fields

namespace Datum

/-- Read a value with fields from a record or a list, given a layout and a
reader of the slots. -/
def fields?
    (layout : List String)
    (read : (String -> Slot) -> Option Value)
    (fields : Fields) : Option Value :=
  if fields.fits layout then read (fun name => fields.slot layout name)
  else none

/-- Read a value with fields from a record or a list. -/
def structure?
    (layout : List String)
    (read : (String -> Slot) -> Option Value)
    (datum : Datum) : Option Value :=
  (Fields.ofDatum? datum).bind (fields? layout read)

/-- Read a value that is kept as a whole until its tag is known, so that every
part of it has to be readable. -/
def whole? (read : Datum -> Option Value) (datum : Datum) : Option Value :=
  if datum.isReadable then read datum else none

/-- Whether a datum counts as nothing where a choice holds nothing. -/
def isNothing : Standing -> Datum -> Bool
  | _, .null => true
  | .inner, .record [] => true
  | _, _ => false

/-- Read one of several named choices: its name, or a record whose only member
has that name and holds nothing. -/
def choice? (standing : Standing) (find : String -> Option Value) :
    Datum -> Option Value
  | .text name => find name
  | .record [(name, content)] => if content.isNothing standing then find name else none
  | _ => none

/-- Read the tag of a variant: its name, or inside a larger value also its
position in the list of variants. -/
def tag? (standing : Standing) (variants : List (String × Value)) :
    Datum -> Option Value
  | .text name => variants.lookup name
  | .integer (.ofNat position) =>
      match standing with
      | .outer => none
      | .inner => variants[position]?.map Prod.snd
  | _ => none

end Datum
end StrategyGraph
