/-!
# Template values

The values that the properties of a template hold: literals, lists, maps and applications of the
intrinsic functions.

* `Pseudo` are the parameters that every stack has without declaring them;
* `Piece` is a piece of a substitution text;
* `Value` is a literal, a list, a map with its entries in source order, or an intrinsic;
* `Value.sites` lists the names that a value reads, in source order.
-/

namespace CdkStacks.Template

/-! ## Pseudo parameters -/

/-- The pseudo parameters, which every stack has without declaring them. -/
inductive Pseudo where
  | accountId
  | notificationArns
  | noValue
  | partition
  | region
  | stackId
  | stackName
  | urlSuffix
  deriving DecidableEq, Repr

namespace Pseudo

/-- All pseudo parameters. -/
def all : List Pseudo :=
  [accountId, notificationArns, noValue, partition, region, stackId, stackName, urlSuffix]

/-- The name by which a template refers to a pseudo parameter. -/
def name : Pseudo → String
  | accountId => "AWS::AccountId"
  | notificationArns => "AWS::NotificationARNs"
  | noValue => "AWS::NoValue"
  | partition => "AWS::Partition"
  | region => "AWS::Region"
  | stackId => "AWS::StackId"
  | stackName => "AWS::StackName"
  | urlSuffix => "AWS::URLSuffix"

/-- The pseudo parameter of a name. -/
def ofName? (name : String) : Option Pseudo :=
  all.find? fun p => p.name = name

end Pseudo

/-! ## Values -/

/-- A piece of a substitution text. -/
inductive Piece where
  | text (text : String)
  /-- A name bound by the substitution itself. -/
  | bound (name : String)
  /-- A parameter or a resource. -/
  | name (target : String)
  /-- An attribute of a resource. -/
  | getAtt (target member : String)
  | pseudo (parameter : Pseudo)
  deriving DecidableEq, Repr

/-- A value of a template. -/
inductive Value where
  | null
  | bool (value : Bool)
  /-- A number, by its text. -/
  | number (text : String)
  | string (text : String)
  | list (items : List Value)
  /-- Entries in source order. -/
  | map (entries : List (String × Value))
  /-- `Ref` to a parameter or a resource. -/
  | ref (target : String)
  /-- `Ref` to a pseudo parameter. -/
  | pseudo (parameter : Pseudo)
  /-- `Fn::GetAtt`. -/
  | getAtt (target member : String)
  /-- `Fn::Join`. -/
  | join (delimiter : String) (parts : Value)
  /-- `Fn::Sub`, its text already cut into pieces. -/
  | sub (pieces : List Piece) (bindings : List (String × Value))
  /-- `Fn::Select`. -/
  | select (index list : Value)
  /-- `Fn::Split`. -/
  | split (delimiter : String) (source : Value)
  /-- `Fn::ImportValue`. -/
  | importValue (name : Value)
  /-- `Fn::Base64`. -/
  | base64 (source : Value)
  /-- `Fn::GetAZs`. -/
  | zones (region : Value)
  deriving Repr

instance : Inhabited Value := ⟨.null⟩

/-- The function that a map applies when it has a single key that starts with `Fn::`. Such a map is
passed through: the functions that have a counterpart are no maps. -/
def passedFunction? : List (String × Value) → Option String
  | [(key, _)] => if "Fn::".toList.isPrefixOf key.toList then some key else none
  | _ => none

/-! ## Names read by a value -/

/-- A place where a value reads a declared name. -/
structure Site where
  target : String
  /-- An attribute can be read from a resource only. -/
  needsResource : Bool
  deriving DecidableEq, Repr

/-- The name that a piece reads from the template. -/
def Piece.site? : Piece → Option Site
  | .name target => some ⟨target, false⟩
  | .getAtt target _ => some ⟨target, true⟩
  | .text _ | .bound _ | .pseudo _ => none

mutual

/-- The names that a value reads, in source order. The variables of a substitution come before its
text. -/
def Value.sites : Value → List Site
  | .null | .bool _ | .number _ | .string _ | .pseudo _ => []
  | .list items => itemSites items
  | .map entries => entrySites entries
  | .ref target => [⟨target, false⟩]
  | .getAtt target _ => [⟨target, true⟩]
  | .join _ parts => parts.sites
  | .sub pieces bindings => entrySites bindings ++ pieces.filterMap Piece.site?
  | .select index list => index.sites ++ list.sites
  | .split _ source => source.sites
  | .importValue name => name.sites
  | .base64 source => source.sites
  | .zones region => region.sites

/-- The names that the items of a list read. -/
def itemSites : List Value → List Site
  | [] => []
  | item :: rest => item.sites ++ itemSites rest

/-- The names that the values of entries read. -/
def entrySites : List (String × Value) → List Site
  | [] => []
  | (_, value) :: rest => value.sites ++ entrySites rest

end

end CdkStacks.Template
