import Rebind.Rewrite.Session
import Rebind.Tree.Exchange

/-!
# The plugin

A host hands over a program, the text of the options and the name of the file,
the last two if it has them; the program comes and goes in the exchange form.
Options that are rejected do not stop the build: the rejection is reported, and
the program is rewritten with the usual options. Without replacements these only
bring providers into the long form.
-/

namespace Rebind.Plugin

/-- The name of a file that the host does not name. -/
def unknownFile : String := "unknown"

/-- The text without the first of the marks that it starts with. -/
def stripFirst (marks : List (List Char)) (s : List Char) : List Char :=
  match marks.find? (·.isPrefixOf s) with
  | some mark => s.drop mark.length
  | none => s

/-- The name of a file in reports: with slashes only, and without the scheme of a file address. -/
def fileName (file : String) : String :=
  let slashed := file.toList.map fun c => if c = '\\' then '/' else c
  String.ofList (stripFirst ["file:///".toList, "file://".toList] slashed)

/-- The options that are used for a text, and what is reported about it. -/
def options : Option String → Options × List Event
  | none => ({}, [])
  | some text =>
      let reading := Options.read text
      let duplicates := reading.duplicates.map Event.duplicate
      match reading.result with
      | .ok o => (o, duplicates)
      | .error r => ({}, duplicates ++ [.optionsIgnored r])

/-- Rewrites a program for a host. -/
def run (text file : Option String) (p : Program) : Outcome :=
  let (o, events) := options text
  let outcome := o.rewrite ((file.map fileName).getD unknownFile) p
  { outcome with events := events ++ outcome.events }

end Rebind.Plugin
