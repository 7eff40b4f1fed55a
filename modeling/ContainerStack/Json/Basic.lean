import ContainerStack.Entries
import ContainerStack.Number.Basic

/-!
Document values: null, booleans, numbers, strings, lists and objects. An object
holds its members in written order. `Distinct` says that no object names a
member twice, which the reader guarantees of what it reads. `same`, `equalData`
and `equalSignedData` are equality up to the order of members; they differ on
numbers only. The depth counts the lists and objects around an innermost value.
-/

namespace ContainerStack

inductive Json where
  | null
  | bool (value : Bool)
  | num (value : Number)
  | str (value : String)
  | arr (items : List Json)
  | obj (members : List (String × Json))
deriving Inhabited

namespace Json

mutual

private def decEq : (x y : Json) → Decidable (x = y)
  | .null, .null => isTrue rfl
  | .bool a, .bool b =>
    if h : a = b then isTrue (by rw [h]) else isFalse fun he => h (Json.bool.inj he)
  | .num a, .num b =>
    if h : a = b then isTrue (by rw [h]) else isFalse fun he => h (Json.num.inj he)
  | .str a, .str b =>
    if h : a = b then isTrue (by rw [h]) else isFalse fun he => h (Json.str.inj he)
  | .arr xs, .arr ys =>
    match decEqList xs ys with
    | isTrue h => isTrue (by rw [h])
    | isFalse h => isFalse fun he => h (Json.arr.inj he)
  | .obj xs, .obj ys =>
    match decEqMembers xs ys with
    | isTrue h => isTrue (by rw [h])
    | isFalse h => isFalse fun he => h (Json.obj.inj he)
  | .null, .bool _ | .null, .num _ | .null, .str _ | .null, .arr _ | .null, .obj _
  | .bool _, .null | .bool _, .num _ | .bool _, .str _ | .bool _, .arr _ | .bool _, .obj _
  | .num _, .null | .num _, .bool _ | .num _, .str _ | .num _, .arr _ | .num _, .obj _
  | .str _, .null | .str _, .bool _ | .str _, .num _ | .str _, .arr _ | .str _, .obj _
  | .arr _, .null | .arr _, .bool _ | .arr _, .num _ | .arr _, .str _ | .arr _, .obj _
  | .obj _, .null | .obj _, .bool _ | .obj _, .num _ | .obj _, .str _ | .obj _, .arr _ =>
    isFalse (by simp)

private def decEqList : (xs ys : List Json) → Decidable (xs = ys)
  | [], [] => isTrue rfl
  | [], _ :: _ => isFalse (by simp)
  | _ :: _, [] => isFalse (by simp)
  | x :: xs, y :: ys =>
    match decEq x y, decEqList xs ys with
    | isTrue h, isTrue hs => isTrue (by rw [h, hs])
    | isFalse h, _ => isFalse fun he => h (List.cons.inj he).1
    | _, isFalse hs => isFalse fun he => hs (List.cons.inj he).2

private def decEqMembers : (xs ys : List (String × Json)) → Decidable (xs = ys)
  | [], [] => isTrue rfl
  | [], _ :: _ => isFalse (by simp)
  | _ :: _, [] => isFalse (by simp)
  | (k, x) :: xs, (l, y) :: ys =>
    if hk : k = l then
      match decEq x y, decEqMembers xs ys with
      | isTrue h, isTrue hs => isTrue (by rw [hk, h, hs])
      | isFalse h, _ => isFalse fun he => h (Prod.mk.inj (List.cons.inj he).1).2
      | _, isFalse hs => isFalse fun he => hs (List.cons.inj he).2
    else isFalse fun he => hk (Prod.mk.inj (List.cons.inj he).1).1

end

instance : DecidableEq Json :=
  decEq

mutual

/-- No object inside names a member twice. -/
def Distinct : Json → Prop
  | .arr items => DistinctItems items
  | .obj members => (Entries.keys members).Nodup ∧ DistinctMembers members
  | _ => True

def DistinctItems : List Json → Prop
  | [] => True
  | x :: rest => x.Distinct ∧ DistinctItems rest

def DistinctMembers : List (String × Json) → Prop
  | [] => True
  | (_, x) :: rest => x.Distinct ∧ DistinctMembers rest

end

mutual

/-- The number of lists and objects around the innermost value. -/
def depth : Json → Nat
  | .arr items => depthOfItems items + 1
  | .obj members => depthOfMembers members + 1
  | _ => 0

def depthOfItems : List Json → Nat
  | [] => 0
  | x :: rest => max x.depth (depthOfItems rest)

def depthOfMembers : List (String × Json) → Nat
  | [] => 0
  | (_, x) :: rest => max x.depth (depthOfMembers rest)

end

mutual

/-- Equality up to the order of members, numbers compared by `sameNumber`. -/
def agree (sameNumber : Number → Number → Bool) : Json → Json → Bool
  | .null, .null => true
  | .bool a, .bool b => a == b
  | .num a, .num b => sameNumber a b
  | .str a, .str b => a == b
  | .arr xs, .arr ys => agreeItems sameNumber xs ys
  | .obj xs, .obj ys => xs.length == ys.length && agreeMembers sameNumber xs ys
  | _, _ => false

def agreeItems (sameNumber : Number → Number → Bool) : List Json → List Json → Bool
  | [], [] => true
  | x :: xs, y :: ys => agree sameNumber x y && agreeItems sameNumber xs ys
  | _, _ => false

def agreeMembers (sameNumber : Number → Number → Bool) :
    List (String × Json) → List (String × Json) → Bool
  | [], _ => true
  | (k, x) :: xs, ys =>
    (match Entries.get? k ys with
      | some y => agree sameNumber x y
      | none => false) && agreeMembers sameNumber xs ys

end

/-- Equality up to the order of members; an integer differs from every double. -/
def same (x y : Json) : Bool :=
  agree (fun a b => a.isInteger == b.isInteger && a.compareValue b == .eq) x y

/-- Equality up to the order of members; numbers are equal when their values are. -/
def equalData (x y : Json) : Bool :=
  agree (fun a b => a.compareValue b == .eq) x y

/-- Equality as data that tells the negative zero from the others. -/
def equalSignedData (x y : Json) : Bool :=
  agree (fun a b => a.isNegativeZero == b.isNegativeZero && a.compareValue b == .eq) x y

end Json

end ContainerStack
