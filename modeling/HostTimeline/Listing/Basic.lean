import HostTimeline.StableSort
import HostTimeline.Table.Basic

/-!
Listings: tables with a default selection, and the help that tells their fields.
-/

namespace HostTimeline

structure Listing (ρ : Type) where
  columns : List (Table.Column ρ)
  aliases : Table.Aliases := []
  defaults : String

/-- What a listing can show. -/
structure ListingHelp where
  fields : List String
  aliases : Table.Aliases
  defaults : String
deriving Repr, DecidableEq

namespace Listing

variable {ρ : Type}

def help (listing : Listing ρ) : ListingHelp :=
  { fields := stableSort (fun left right => decide (left ≤ right))
      (listing.columns.map Table.Column.name)
    aliases := stableSort (fun left right => decide (left.1 ≤ right.1)) listing.aliases
    defaults := listing.defaults }

/-- The text of rows in the form that a selection describes, or in the default one. -/
def render (listing : Listing ρ) (format : Option String) (rows : List ρ) :
    Except TableError String := do
  let selection ← Table.select listing.columns listing.aliases (format.getD listing.defaults)
  Table.render listing.columns selection.fields selection.options rows

end Listing

namespace ListingHelp

def indented (text : String) : String :=
  "  " ++ text ++ "\n"

def aliasLine (entry : String × List String) : String :=
  indented (entry.1 ++ " --> " ++ ",".intercalate entry.2)

def controlWords : List String :=
  ["awk", "csv", "csvnamed", "fixed", "json", "header", "noheader"]

def text (help : ListingHelp) : String :=
  "Syntax:\n" ++ indented "--fmt=(field|alias|control),..." ++
    "\nFields:\n" ++ String.join (help.fields.map indented) ++
    (if help.aliases.isEmpty then ""
      else "\nAliases:\n" ++ String.join (help.aliases.map aliasLine)) ++
    "\nDefaults:\n" ++ indented help.defaults ++
    "\nControl:\n" ++ String.join (controlWords.map indented)

end ListingHelp

end HostTimeline
