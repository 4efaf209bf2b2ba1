/-
Module: Crosswire.LogFilter
Purpose: Which events are shown. A filter is a list of directives, each giving a verbosity to the events
  that it covers; the most specific one decides, and where none covers an event it is not shown.

  A filter is written as directives between commas. A directive is a level for everything, or a target,
  which covers all targets that begin with it. In square brackets behind the target may stand the name
  of a span and, in braces, a field that an event must have; its value may be given as a number or as a
  pattern. An equals sign and a level may come last; without a level everything is shown. Only events
  are logged here, never spans, so a directive that names a span, or asks for the value of a field,
  covers nothing.
Imports: Crosswire.Event, Crosswire.Text.Alphanumeric, Crosswire.Text.Numeral,
  Crosswire.Text.Pattern.WellFormed, Crosswire.Text.Pieces, Crosswire.Text.Slice,
  Crosswire.Text.Unsigned, Crosswire.Text.WhiteSpace
Main exports: Verbosity, Directive, LogFilter, LogFilter.parse?, LogFilter.shows
-/
import Crosswire.Event
import Crosswire.Text.Alphanumeric
import Crosswire.Text.Numeral
import Crosswire.Text.Pattern.WellFormed
import Crosswire.Text.Pieces
import Crosswire.Text.Slice
import Crosswire.Text.Unsigned
import Crosswire.Text.WhiteSpace

namespace Crosswire

/-- How much to show: the highest rank of severity that still shows, or zero for nothing. -/
abbrev Verbosity := Nat

namespace Verbosity

/-- The verbosity that shows everything. -/
def everything : Verbosity := 5

/-- The verbosity that a level stands for: its number, or its name in any case. -/
def parse? (word : String) : Option Verbosity :=
  match parseUnsigned word with
  | .ok number => if number ≤ everything then some number else none
  | .error _ =>
    match String.ofList (word.toList.map Char.toLower) with
    | "off" => some 0
    | "error" => some 1
    | "warn" => some 2
    | "info" => some 3
    | "debug" => some 4
    | "trace" => some 5
    | _ => none

end Verbosity

/-- What a directive asks of a field. -/
structure FieldCondition where
  name : String
  /-- The value that the field should have, if one was written. -/
  value : Option String
deriving DecidableEq, Repr

/-- Whether a text can be the value of a field in a directive: a number, or a pattern for the value. -/
def isFieldValue (text : String) : Bool :=
  isNumeral text || Pattern.isWellFormed text

/-- Read a field condition, which has an equals sign before the value. A second equals sign ends the
value. -/
def FieldCondition.parse? (text : String) : Option FieldCondition :=
  let parts := pieces '=' text
  let value := parts.tail.head?
  if value.all isFieldValue then some ⟨parts.headD "", value⟩ else none

/-- The verbosity of the events that a directive covers. -/
structure Directive where
  /-- The beginning of their targets. -/
  target : String
  /-- The span that they must be in. -/
  span : Option String
  /-- The field that they must have. -/
  field : Option FieldCondition
  verbosity : Verbosity
deriving DecidableEq, Repr

namespace Directive

/-- The directive for all targets that begin with `target`. -/
def ofTarget (target : String) (verbosity : Verbosity) : Directive :=
  ⟨target, none, none, verbosity⟩

/-- The directive for all events. -/
def general (verbosity : Verbosity) : Directive :=
  ofTarget "" verbosity

/-! ### Reading

A directive is recognised without the white space around it, but its parts are cut out of it as it is
written, at the byte positions where they were recognised. White space in front therefore moves every
part, and white space at the end belongs to the last one. A directive with a part that would begin or end
inside a character is refused. -/

/-- Whether a directive may begin with a character. -/
def mayBegin (character : Char) : Bool :=
  isAlphanumeric character || character == '_' || character == ':' || character == '-'

/-- The level that begins at a position: everything if nothing is written there. -/
def readLevel (written : List Char) (start : Nat) : Option Verbosity :=
  match dropBytes? start written with
  | none => none
  | some [] => some .everything
  | some word => Verbosity.parse? (String.ofList word)

/-- What follows the square brackets, from a position on: nothing, or an equals sign and a level. -/
def readClosing (written : List Char) (start : Nat) : List Char → Option Verbosity
  | [] => some .everything
  | '=' :: _ => readLevel written (start + 1)
  | _ => none

/-- Read what stands in square brackets from a position on, and what follows them. Between empty brackets
stands a span without a name; a field can do without a span. -/
def readScope (written : List Char) (target : String) (start : Nat) (text : List Char) :
    Option Directive := do
  let named := text.takeWhile fun character => character != ']' && character != '\x7b'
  let stop := start + byteCount named
  let span := String.ofList (← slice? start stop written)
  match text.drop named.length with
  | ']' :: rest =>
    let verbosity ← readClosing written (stop + 1) rest
    return ⟨target, some span, none, verbosity⟩
  | '\x7b' :: inner =>
    let content := inner.takeWhile (· != '\x7d')
    let fieldStop := stop + 1 + byteCount content
    match content, inner.drop content.length with
    | _ :: _, '\x7d' :: ']' :: rest =>
      let field ← FieldCondition.parse? (String.ofList (← slice? (stop + 1) fieldStop written))
      let verbosity ← readClosing written (fieldStop + 2) rest
      return ⟨target, if named.isEmpty then none else some span, some field, verbosity⟩
    | _, _ => none
  | _ => none

/-- Read one directive. A level without a target is a directive for everything. -/
def parse? (piece : String) : Option Directive := do
  let written := piece.toList
  match trimmed written with
  | [] => none
  | '[' :: rest => readScope written "" 1 rest
  | first :: rest =>
    if !mayBegin first then none
    else
      let text := first :: rest
      let named := text.takeWhile fun character => character != '=' && character != '['
      let stop := byteCount named
      match text.drop named.length with
      | '=' :: _ =>
        let target ← slice? 0 stop written
        let verbosity ← readLevel written (stop + 1)
        return ofTarget (String.ofList target) verbosity
      | '[' :: rest =>
        let target ← slice? 0 stop written
        readScope written (String.ofList target) (stop + 1) rest
      | _ =>
        match Verbosity.parse? piece with
        | some verbosity => return general verbosity
        | none => return ofTarget piece .everything

/-! ### Covering -/

/-- Whether a directive covers an event. -/
def covers (directive : Directive) (event : Event) : Bool :=
  directive.span.isNone
    && directive.target.toList.isPrefixOf event.target.toList
    && directive.field.all fun field => field.value.isNone && event.hasField field.name

/-- Whether one text comes before another, by code points. -/
def textBefore (first second : String) : Bool :=
  List.lex first.toList second.toList fun one other => one.toNat < other.toNat

/-- Whether a directive decides before another that covers the same event: it has the longer target or,
if the targets are equally long, a field where the other has none or one of a lower name. Of
directives that are alike in this the later decides. -/
def overrides (later earlier : Directive) : Bool :=
  if later.target.length ≠ earlier.target.length then earlier.target.length < later.target.length
  else
    match earlier.field, later.field with
    | none, _ => true
    | some _, none => false
    | some before, some after => !textBefore after.name before.name

end Directive

/-- A list of directives. -/
structure LogFilter where
  directives : List Directive
deriving DecidableEq, Repr

namespace LogFilter

/-- Read a filter. Empty directives are skipped, and a filter without any shows errors only. -/
def parse? (text : String) : Option LogFilter :=
  match ((pieces ',' text).filter (· != "")).mapM Directive.parse? with
  | none => none
  | some [] => some ⟨[.general 1]⟩
  | some directives => some ⟨directives⟩

/-- The directive that decides about an event. -/
def decisive? (filter : LogFilter) (event : Event) : Option Directive :=
  filter.directives.foldl
    (fun best directive =>
      if !directive.covers event then best
      else
        match best with
        | none => some directive
        | some other => if directive.overrides other then some directive else best)
    none

/-- Whether a filter shows an event. -/
def shows (filter : LogFilter) (event : Event) : Bool :=
  match filter.decisive? event with
  | some directive => event.severity.rank ≤ directive.verbosity
  | none => false

end LogFilter

end Crosswire
