import SnippetAudit.Component.Usage
import SnippetAudit.Contract.Retail
import SnippetAudit.Contract.Web

/-!
# Packages of components

A package is a set of components with their contracts. It tells how a tag leads to a contract, by the
type of the tag or by the name of the component, and which calls create its components.

## What this module delivers

- `Package`, `packages`: the built-in packages;
- `Package.contractOf?`: the contract document of a tag.
-/

set_option autoImplicit false

namespace SnippetAudit.Contract

/-- A set of components with their contracts. -/
structure Package where
  name : String
  contracts : Members (Members Value)
  /-- The type of each tag, where tags lead to contracts by types. -/
  tagTypes : Members String := []
  /-- The names of members that create a component when called. -/
  factories : List String := []

namespace Package

/-- Tags lead to contracts by types. -/
def mapsTags (p : Package) : Bool := !p.tagTypes.isEmpty

/-- The contract document of a tag by its type. -/
def contractByType? (p : Package) (tag : String) : Option (Members Value) :=
  (p.tagTypes.get? tag).bind fun type => p.contracts.get? (type ++ "Schema")

/-- The contract document of a tag by the name of the component. -/
def contractByName? (p : Package) (tag : String) : Option (Members Value) :=
  (p.contracts.get? (tag ++ "PropsSchema")).or (p.contracts.get? (tag ++ "Schema"))

/-- The contract document of a tag. -/
def contractOf? (p : Package) (tag : String) : Option (Members Value) :=
  if p.mapsTags then p.contractByType? tag else p.contractByName? tag

end Package

/-- Web components for app pages. -/
def webPackage : Package where
  name := "@shopify/app-bridge-ui-types"
  contracts := webContracts
  tagTypes := webTags

/-- Retail components created by calls. -/
def retailPackage : Package where
  name := "@shopify/ui-extensions/point-of-sale"
  contracts := Retail.retailContracts
  factories := Component.componentFactories

/-- Retail components used by markup only. -/
def retailMarkupPackage : Package where
  name := "@shopify/ui-extensions-react/point-of-sale"
  contracts := Retail.retailContracts

/-- The built-in packages. -/
def packages : List Package := [webPackage, retailMarkupPackage, retailPackage]

/-- No package has this name. -/
structure UnsupportedPackage where
  name : String
  deriving Repr, DecidableEq

/-- The wording of the error, with all packages there are. -/
def UnsupportedPackage.message (e : UnsupportedPackage) : String :=
  "Unsupported package: " ++ e.name ++ ". Supported packages are: " ++
    ", ".intercalate (packages.map Package.name)

/-- The package of a name. -/
def packageOf (name : String) : Except UnsupportedPackage Package :=
  match packages.find? fun p => p.name == name with
  | some p => .ok p
  | none => .error ⟨name⟩

end SnippetAudit.Contract
