import LinearScan.Bank.Catalog

/-!
# Sharing catalogs

A catalog is built once for each target identity and shared afterwards.

## Main Definitions

* `CatalogCache` — the catalogs built so far
* `CatalogCache.fetchM`, `CatalogCache.fetch` — the catalog of a target, built on first use

## Design Notes

Sharing is visible as the slot a catalog sits in: two fetches share a catalog exactly
if they return one slot.
-/

namespace LinearScan

/-- The catalogs built so far, oldest first, each under its target's identity. -/
structure CatalogCache where
  slots : List (String × Catalog)

/-- A catalog in a cache. -/
structure SharedCatalog where
  catalog : Catalog
  /-- The place of the catalog in the cache. -/
  slot : Nat
  /-- What was logged: a record for a catalog that had to be built. -/
  events : List Event

/-- A catalog as fetched from a cache. -/
structure FetchedCatalog extends SharedCatalog where
  /-- The cache afterwards. -/
  cache : CatalogCache

namespace CatalogCache

/-- No catalog built yet. -/
def empty : CatalogCache :=
  ⟨[]⟩

/-- The request for the catalog of a target, built on first use and shared afterwards. -/
def fetchM (target : Target) : Request CatalogError CatalogCache SharedCatalog := do
  let identity := target.identity
  let slots := (← get).slots
  match slots.findIdx? (·.1 == identity), slots.find? (·.1 == identity) with
  | some slot, some (_, catalog) => return { catalog, slot, events := [] }
  | _, _ =>
    let catalog ← MonadExcept.ofExcept (Catalog.build target)
    set (CatalogCache.mk (slots ++ [(identity, catalog)]))
    return { catalog, slot := slots.length, events := [catalog.builtEvent] }

/-- The catalog of a target, built on first use and shared afterwards. -/
def fetch (cache : CatalogCache) (target : Target) : Except CatalogError FetchedCatalog :=
  ((fetchM target).answer cache).map fun answer => { answer.1 with cache := answer.2 }

end CatalogCache

end LinearScan
