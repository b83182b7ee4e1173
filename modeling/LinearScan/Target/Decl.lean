import LinearScan.Target.Basic

/-!
# Target declarations

A target can be given as plain data: a name and a list of register declarations that
refer to each other and to predicates by name.

## Main Definitions

* `RegisterDecl`, `TargetDecl` — the data
* `TargetDecl.toTarget` — resolves the names

## Design Notes

All registers are declared before any reference is resolved, so a declaration may
refer to a later one.  A one-sided overlap links both registers.
-/

namespace LinearScan

/-- The declaration of one register. -/
structure RegisterDecl where
  name : String
  /-- Size in bytes. -/
  size : Nat
  storage : StorageClass
  /-- The name of a predicate; a register without one is never allocated. -/
  accepts : Option String
  /-- The value sizes served, by default the register's own. -/
  sizes : Option (List Nat)
  /-- The names of registers that share storage with this one. -/
  overlaps : List String
  calleeSaved : Bool
  usable : Bool
deriving DecidableEq

/-- The declaration of a target. -/
structure TargetDecl where
  name : String
  registers : List RegisterDecl
deriving DecidableEq

namespace RegisterDecl

/-- Declares the register itself. -/
def declare (decl : RegisterDecl) (target : String) (builder : RegisterBuilder) :
    Except TargetError RegisterBuilder := do
  let (id, builder) ←
    (builder.declare decl.name decl.size decl.storage decl.calleeSaved).mapError
      (.declaration target)
  (builder.setUsable id decl.usable).mapError .fault

/-- The id of the register, which was declared under its name. -/
def find (decl : RegisterDecl) (builder : RegisterBuilder) : Except TargetError RegisterId :=
  match builder.lookup? decl.name with
  | some id => .ok id
  | none => .error (.vanished decl.name)

/-- Links the register of the given id to those that its declaration says it overlaps. -/
def link (decl : RegisterDecl) (target : String) (id : RegisterId) (builder : RegisterBuilder) :
    Except TargetError RegisterBuilder :=
  decl.overlaps.foldlM (fun builder other =>
    match builder.lookup? other with
    | some otherId => (builder.aliasPair id otherId).mapError .fault
    | none => .error (.overlapsUnknown target decl.name other)) builder

/-- The entry of the register of the given id, if it is to be allocated. -/
def entry? (decl : RegisterDecl) (target : String) (id : RegisterId) :
    Except TargetError (Option Entry) :=
  match decl.accepts with
  | none => .ok none
  | some predicate =>
    match TypePredicate.ofName? predicate with
    | none => .error (.acceptsUnknown target decl.name predicate)
    | some accepts => .ok (some ⟨id, decl.sizes.getD [decl.size], accepts⟩)

/-- Resolves the references of declarations in order, each register's overlaps before
its predicate. -/
def resolve (target : String) (builder : RegisterBuilder) :
    List RegisterDecl → Except TargetError (RegisterBuilder × List Entry)
  | [] => .ok (builder, [])
  | decl :: rest => do
    let id ← decl.find builder
    let builder ← decl.link target id builder
    let entry? ← decl.entry? target id
    let (builder, entries) ← resolve target builder rest
    return (builder, entry?.toList ++ entries)

end RegisterDecl

/-- The target that a declaration describes. -/
def TargetDecl.toTarget (decl : TargetDecl) : Except TargetError Target := do
  let builder ← decl.registers.foldlM
    (fun builder register => register.declare decl.name builder) RegisterBuilder.empty
  let (builder, entries) ← RegisterDecl.resolve decl.name builder decl.registers
  Target.make decl.name (.ofBuilder builder) entries

end LinearScan
