import CqlWorkload.Text.Blank

/-!
# Paths

A path is a root and the parts below it.  Empty parts and single dots do not
count; two dots are kept, since what they lead to depends on the file system.
-/

namespace CqlWorkload

structure Path where
  /-- Nothing for a relative path, or one or two slashes. -/
  root : String
  parts : List String
  deriving DecidableEq

namespace Path

/-- The root of a text: three and more slashes count as one. -/
def rootOf : List Char → String
  | ['/', '/'] => "//"
  | '/' :: '/' :: c :: _ => if c = '/' then "/" else "//"
  | '/' :: _ => "/"
  | _ => ""

def ofText (s : String) : Path where
  root := rootOf s.toList
  parts := ((Text.splitAt '/' s.toList).map String.ofList).filter fun part =>
    part != "" && part != "."

def text (p : Path) : String :=
  if p.root = "" && p.parts.isEmpty then "." else p.root ++ Text.joinWith "/" p.parts

def name (p : Path) : String := p.parts.getLast?.getD ""

def parent (p : Path) : Path := { p with parts := p.parts.dropLast }

/-- What stands in a name from its last dot on, and what stands before it.  A dot
at either end of the name does not count. -/
def splitName (name : String) : String × String :=
  let reversed := name.toList.reverse
  let ending := reversed.takeWhile (· != '.')
  match ending, reversed.dropWhile (· != '.') with
  | _ :: _, _ :: c :: stem =>
    (String.ofList (c :: stem).reverse, String.ofList ('.' :: ending.reverse))
  | _, _ => (name, "")

def suffix (p : Path) : String := (splitName p.name).2

/-- The path with another ending; none if the last part is missing. -/
def withSuffix? (p : Path) (suffix : String) : Option Path :=
  if p.name = "" then none
  else some { p with parts := p.parts.dropLast ++ [(splitName p.name).1 ++ suffix] }

end Path
end CqlWorkload
