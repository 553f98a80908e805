import Vanetza.Common.ByteBuffer

/-!
# Maps with expiring entries

`SoftStateMap` keeps its values in a hash map and their expiry times in a heap; each value has a
handle to its element of the heap. Nothing is removed when it expires.
-/

namespace Vanetza.Geonet

/-- `ExpiryWithKey` under its handle; the expiry is in microseconds. -/
structure HeapElement (K : Type) where
  handle : Nat
  key : K
  expiry : Int
  deriving DecidableEq

structure MapElement (K V : Type) where
  key : K
  handle : Nat
  value : V

/-- `SoftStateMap`; handles are numbered in the order they are made. -/
structure SoftStateMap (K V : Type) where
  lifetime : Int
  heap : List (HeapElement K)
  map : List (MapElement K V)
  nextHandle : Nat

namespace SoftStateMap

variable {K V : Type} [DecidableEq K]

def empty (lifetime : Int) : SoftStateMap K V := ⟨lifetime, [], [], 0⟩

def setLifetime (m : SoftStateMap K V) (lifetime : Int) : SoftStateMap K V :=
  { m with lifetime }

def isExpired (m : SoftStateMap K V) (now : Int) (handle : Nat) : Bool :=
  m.heap.any fun element => element.handle = handle ∧ element.expiry < now

def getDataPtr (m : SoftStateMap K V) (key : K) : Option (MapElement K V) :=
  m.map.find? fun element => element.key = key

def getValuePtr (m : SoftStateMap K V) (now : Int) (key : K) : Option V :=
  match m.getDataPtr key with
  | some data => if m.isExpired now data.handle then none else some data.value
  | none => none

def hasValue (m : SoftStateMap K V) (now : Int) (key : K) : Bool := (m.getValuePtr now key).isSome

def refreshHandle (m : SoftStateMap K V) (now : Int) (handle : Nat) : SoftStateMap K V :=
  { m with heap := m.heap.map fun element =>
      if element.handle = handle then
        { element with expiry := now + m.lifetime }
      else element }

def insert (m : SoftStateMap K V) (now : Int) (key : K) (value : V) : SoftStateMap K V :=
  { m with
    heap := ⟨m.nextHandle, key, now + m.lifetime⟩ :: m.heap
    map := ⟨key, m.nextHandle, value⟩ :: m.map
    nextHandle := m.nextHandle + 1 }

/-- `get_value`: make sure there is a value, and that it has not expired. -/
def getValue (m : SoftStateMap K V) (now : Int) (creator : V) (key : K) : SoftStateMap K V :=
  match m.getDataPtr key with
  | none => m.insert now key creator
  | some data =>
    if m.isExpired now data.handle then m.refreshHandle now data.handle
    else m

/-- `refresh`: make sure there is a value, with a full lifetime ahead. -/
def refresh (m : SoftStateMap K V) (now : Int) (creator : V) (key : K) : SoftStateMap K V :=
  match m.getDataPtr key with
  | none => m.insert now key creator
  | some data => m.refreshHandle now data.handle

def modify (m : SoftStateMap K V) (key : K) (f : V → V) : SoftStateMap K V :=
  { m with map := m.map.map fun element =>
      if element.key = key then { element with value := f element.value }
      else element }

def top : List (HeapElement K) → Option (HeapElement K)
  | [] => none
  | element :: rest =>
    match top rest with
    | none => some element
    | some least => if least.expiry < element.expiry then some least else some element

/-- The loop of `drop_expired`; it runs at most once for each element. -/
def dropLoop (now : Int) : Nat → SoftStateMap K V → SoftStateMap K V
  | 0, m => m
  | n + 1, m =>
    match top m.heap with
    | none => m
    | some element =>
      if element.expiry < now then
        dropLoop now n { m with
          map := m.map.filter fun data => data.key ≠ element.key
          heap := m.heap.filter fun e => e.handle ≠ element.handle }
      else m

def dropExpired (m : SoftStateMap K V) (now : Int) : SoftStateMap K V :=
  dropLoop now m.heap.length m

/-- `map`: all values that have not expired, under their keys. -/
def entries (m : SoftStateMap K V) (now : Int) : List (K × V) :=
  (m.map.filter fun element => !m.isExpired now element.handle).map
    fun element => (element.key, element.value)

end SoftStateMap

end Vanetza.Geonet
