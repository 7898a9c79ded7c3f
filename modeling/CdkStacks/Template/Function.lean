import CdkStacks.Template.Value

/-!
# Intrinsic functions

The nine functions that are read as intrinsics.

* `Function.name` is the long name, which a map with a single key spells out;
* `longName` is the long name that belongs to a tag, such as `Fn::Sub` to `!Sub`.
-/

namespace CdkStacks.Template

/-- The functions that are read as intrinsics. -/
inductive Function where
  | ref
  | getAtt
  | join
  | sub
  | select
  | split
  | importValue
  | base64
  | getAZs
  deriving DecidableEq, Repr

namespace Function

/-- All functions. -/
def all : List Function :=
  [ref, getAtt, join, sub, select, split, importValue, base64, getAZs]

/-- The long name of a function. -/
def name : Function → String
  | ref => "Ref"
  | getAtt => "Fn::GetAtt"
  | join => "Fn::Join"
  | sub => "Fn::Sub"
  | select => "Fn::Select"
  | split => "Fn::Split"
  | importValue => "Fn::ImportValue"
  | base64 => "Fn::Base64"
  | getAZs => "Fn::GetAZs"

/-- The function of a long name. -/
def ofName? (name : String) : Option Function :=
  all.find? fun f => f.name = name

end Function

/-- The long name that a tag stands for: `Ref` for `!Ref`, `Fn::T` for any other tag `!T`. -/
def longName (tag : String) : String :=
  let bare := String.ofList (tag.toList.dropWhile (· = '!'))
  if bare = "Ref" then bare else "Fn::" ++ bare

end CdkStacks.Template
