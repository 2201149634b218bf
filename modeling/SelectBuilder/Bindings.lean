import SelectBuilder.Arg
import SelectBuilder.Fault

/-! Values bound so far, kept by the part of the statement that shows their placeholders. The canonical
order of the parts is the order in which a statement writes them; a store is read, and absorbed by another,
in that order. When values are computed, the first one that can not be is reported. -/
namespace SelectBuilder

inductive Bucket
  | select | source | join | filter | groups | having | order | union | unionOrder
  deriving DecidableEq, Repr

namespace Bucket

def all : List Bucket :=
  [.select, .source, .join, .filter, .groups, .having, .order, .union, .unionOrder]

def name : Bucket → Text
  | .select => "select"
  | .source => "from"
  | .join => "join"
  | .filter => "where"
  | .groups => "groupBy"
  | .having => "having"
  | .order => "order"
  | .union => "union"
  | .unionOrder => "unionOrder"

def index (b : Bucket) : Nat := all.idxOf b

def parse (given : Text) : Except Fault Bucket :=
  match all.find? fun b => b.name = given with
  | some b => .ok b
  | none => .error (.unknownBucket given)

theorem parseOk {given : Text} {b : Bucket} : parse given = .ok b ↔ given = b.name := by
  constructor
  · intro ok
    unfold parse at ok
    split at ok
    · rename_i found
      cases ok
      exact (by simpa using List.find?_some found : _ = given).symm
    · contradiction
  · rintro rfl
    cases b <;> rfl

theorem parseUnknown {given : Text} (unnamed : ∀ b : Bucket, given ≠ b.name) :
    parse given = .error (.unknownBucket given) := by
  unfold parse
  split
  · rename_i b found
    exact absurd (by simpa using List.find?_some found : b.name = given).symm (unnamed b)
  · rfl

end Bucket

structure Bindings where
  select : List Arg := []
  source : List Arg := []
  join : List Arg := []
  filter : List Arg := []
  groups : List Arg := []
  having : List Arg := []
  order : List Arg := []
  union : List Arg := []
  unionOrder : List Arg := []

namespace Bindings

def empty : Bindings := {}

def get (s : Bindings) : Bucket → List Arg
  | .select => s.select
  | .source => s.source
  | .join => s.join
  | .filter => s.filter
  | .groups => s.groups
  | .having => s.having
  | .order => s.order
  | .union => s.union
  | .unionOrder => s.unionOrder

def set (s : Bindings) (b : Bucket) (args : List Arg) : Bindings :=
  match b with
  | .select => { s with select := args }
  | .source => { s with source := args }
  | .join => { s with join := args }
  | .filter => { s with filter := args }
  | .groups => { s with groups := args }
  | .having => { s with having := args }
  | .order => { s with order := args }
  | .union => { s with union := args }
  | .unionOrder => { s with unionOrder := args }

def append (s : Bindings) (b : Bucket) (args : List Arg) : Bindings := s.set b (s.get b ++ args)

def add (s : Bindings) (b : Bucket) (arg : Arg) : Bindings := s.append b arg.leaves

def all (s : Bindings) : List Arg := Bucket.all.flatMap s.get

def stored (s : Bindings) : List (List Arg) :=
  [s.select, s.source, s.join, s.filter, s.groups, s.having, s.order, s.union, s.unionOrder]

def absorb (s : Bindings) (b : Bucket) (inner : Bindings) : Bindings := s.append b inner.stored.flatten

def clear (s : Bindings) (b : Bucket) : Bindings := s.set b []

def size (s : Bindings) : Nat := s.stored.foldl (fun n args => n + args.length) 0

def isEmpty (s : Bindings) : Bool := s.stored.all List.isEmpty

def evaluate : List Arg → Except Fault (List Value)
  | [] => .ok []
  | .value v :: rest => do
    let values ← evaluate rest
    .ok (v :: values)
  | .lazy (.ok v) :: rest => do
    let values ← evaluate rest
    .ok (v :: values)
  | .lazy (.error message) :: _ => .error (.evaluation message)
  | .raw _ :: rest => evaluate rest
  | .list _ :: rest => evaluate rest

def resolve (s : Bindings) : Except Fault (List Value) := evaluate s.all

theorem getSet (s : Bindings) (b : Bucket) (args : List Arg) : (s.set b args).get b = args := by
  cases b <;> rfl

theorem getSetOther (s : Bindings) {b c : Bucket} (other : c ≠ b) (args : List Arg) :
    (s.set b args).get c = s.get c := by
  cases b <;> cases c <;> first | rfl | exact absurd rfl other

theorem getAppend (s : Bindings) (b : Bucket) (args : List Arg) (c : Bucket) :
    (s.append b args).get c = if c = b then s.get c ++ args else s.get c := by
  rw [append]
  split
  · rename_i same
    rw [same, getSet]
  · rename_i other
    exact getSetOther s other _

theorem storedAll (s : Bindings) : s.stored.flatten = s.all := rfl

theorem sizeAll (s : Bindings) : s.size = s.all.length := by
  simp only [size, all, stored, Bucket.all, get, List.foldl, List.flatMap_cons, List.flatMap_nil, List.length_append,
    List.length_nil]
  omega

end Bindings
end SelectBuilder
