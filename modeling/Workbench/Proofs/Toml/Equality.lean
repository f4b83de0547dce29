import Workbench.Toml.Basic

/-!
# Comparing TOML values

Equality of values is decidable, so that what a document is read as can be computed.
-/
namespace Workbench.Toml

mutual

/-- Whether two values are the same. -/
def same : Toml → Toml → Bool
  | .string s, .string t => s == t
  | .integer m, .integer n => m == n
  | .float x, .float y => x == y
  | .boolean b, .boolean c => b == c
  | .datetime s, .datetime t => s == t
  | .array vs, .array ws => sameItems vs ws
  | .table es, .table fs => sameEntries es fs
  | _, _ => false

def sameItems : List Toml → List Toml → Bool
  | [], [] => true
  | v :: vs, w :: ws => same v w && sameItems vs ws
  | _, _ => false

def sameEntries : List (String × Toml) → List (String × Toml) → Bool
  | [], [] => true
  | (k, v) :: es, (l, w) :: fs => k == l && same v w && sameEntries es fs
  | _, _ => false

end

mutual

theorem same_iff (v w : Toml) : same v w = true ↔ v = w := by
  cases v with
  | array vs => cases w <;> simp [same, sameItems_iff vs]
  | table es => cases w <;> simp [same, sameEntries_iff es]
  | string | integer | float | boolean | datetime => cases w <;> simp [same]

theorem sameItems_iff (vs ws : List Toml) : sameItems vs ws = true ↔ vs = ws := by
  cases vs with
  | nil => cases ws <;> simp [sameItems]
  | cons v vs => cases ws <;> simp [sameItems, same_iff v, sameItems_iff vs]

theorem sameEntries_iff (es fs : List (String × Toml)) : sameEntries es fs = true ↔ es = fs := by
  cases es with
  | nil => cases fs <;> simp [sameEntries]
  | cons e es =>
    cases e with
    | mk k v =>
      cases fs <;> simp [sameEntries, same_iff v, sameEntries_iff es, Prod.ext_iff]

end

instance : DecidableEq Toml := fun v w => decidable_of_iff (same v w = true) (same_iff v w)

end Workbench.Toml
