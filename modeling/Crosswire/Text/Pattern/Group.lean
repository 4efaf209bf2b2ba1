/-
Module: Crosswire.Text.Pattern.Group
Purpose: What stands behind the opening parenthesis of a group. A group may be plain, have a name, or
  begin with letters that change settings; letters closed by a parenthesis at once change the settings
  for the rest of the group around them.
Imports: Crosswire.Text.Alphanumeric, Crosswire.Text.Pattern.Escape
Main exports: Pattern.Opening, Pattern.readOpening
-/
import Crosswire.Text.Alphanumeric
import Crosswire.Text.Pattern.Escape

namespace Crosswire.Pattern

/-- What an opening parenthesis begins. -/
inductive Opening where
  /-- A group without a name, with the settings inside. -/
  | group (settings : Settings)
  /-- A group with a name. -/
  | named (name : String)
  /-- No group, but other settings from here on. -/
  | change (settings : Settings)
deriving DecidableEq, Repr

/-- The letters that change settings. -/
def settingLetters : List Char :=
  ['i', 'm', 's', 'U', 'u', 'R', 'x']

/-- Whether letters can change settings: each is known and none is repeated. A hyphen, which may stand
once but not last, parts those switched on from those switched off. -/
def areSettings (letters : List Char) : Bool :=
  letters.all (fun letter => letter == '-' || settingLetters.contains letter)
    && letters.eraseDups.length == letters.length && letters.getLast? != some '-'

/-- Set one setting, if the letter stands for one that decides how a pattern is read. -/
def Settings.set (settings : Settings) (value : Bool) : Char → Settings
  | 'x' => { settings with spaced := value }
  | 'i' => { settings with foldsCase := value }
  | 'u' => { settings with unicode := value }
  | _ => settings

/-- The settings after letters that change them. -/
def Settings.change (settings : Settings) (letters : List Char) : Settings :=
  let switchedOn := letters.takeWhile (· != '-')
  let switchedOff := letters.drop (switchedOn.length + 1)
  switchedOff.foldl (·.set false) (switchedOn.foldl (·.set true) settings)

/-- Whether a text can be the name of a group. -/
def isGroupName : List Char → Bool
  | [] => false
  | first :: rest =>
    (first == '_' || isAlphabetic first)
      && rest.all fun character => ['_', '.', '[', ']'].contains character || isAlphanumeric character

/-- Read the name of a group up to the closing angle bracket. -/
def readGroupName (text : List Char) : Option (Opening × List Char) :=
  let name := text.takeWhile (· != '>')
  match text.drop name.length with
  | _ :: rest => if isGroupName name then some (.named (String.ofList name), rest) else none
  | [] => none

/-- Read letters that change settings, up to a colon or the closing parenthesis. There must be some
before a parenthesis. -/
def readSettings (settings : Settings) (text : List Char) : Option (Opening × List Char) :=
  let letters := text.takeWhile fun character => character != ':' && character != ')'
  if !areSettings letters then none
  else
    match letters, text.drop letters.length with
    | _, ':' :: rest => some (.group (settings.change letters), rest)
    | _ :: _, ')' :: rest => some (.change (settings.change letters), rest)
    | _, _ => none

/-- Read what stands behind an opening parenthesis. Looking ahead or back is refused, for it neither
names a group nor changes a setting. -/
def readOpening (settings : Settings) (text : List Char) : Option (Opening × List Char) :=
  match settings.skip text with
  | '?' :: 'P' :: '<' :: rest => readGroupName rest
  | '?' :: '<' :: rest => readGroupName rest
  | '?' :: rest => readSettings settings rest
  | rest => some (.group settings, rest)

end Crosswire.Pattern
