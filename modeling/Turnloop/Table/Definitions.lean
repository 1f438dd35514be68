import Turnloop.Lib.Pages

/-! Paged generational storage. A slot whose generation is exhausted is retired. -/

namespace Turnloop

open Lib

namespace Table

def PAGE : ℕ := 64

def lastGeneration : ℕ := 2 ^ 32 - 1

abbrev Key := UInt64

/-- `(u64::from(generation) << 32) | i as u64` -/
def pack (generation i : ℕ) : Key := UInt64.ofNat ((generation <<< 32) ||| i)

/-- `key as u32 as usize` -/
def index (key : Key) : ℕ := key.toNat % 2 ^ 32

/-- `(key >> 32) as u32` -/
def generationOf (key : Key) : ℕ := key.toNat / 2 ^ 32

structure Slot (T : Type) where
  generation : ℕ
  value : Option T
  deriving DecidableEq

end Table

/-- The free list is kept with the index that `pop` takes first. -/
structure Table (T : Type) where
  pages : List (List (Table.Slot T))
  free : List ℕ
  ceiling : ℕ
  live : ℕ
  deriving DecidableEq

namespace Table

variable {T : Type}

def remaining (t : Table T) : ℕ := t.ceiling - t.live

def grow (t : Table T) : Table T × Bool :=
  let base := t.pages.length * PAGE
  if t.ceiling ≤ base then (t, false)
  else
    let len := min PAGE (t.ceiling - base)
    ({ t with
        pages := t.pages ++ [List.replicate len ⟨1, none⟩]
        free := List.range' base len ++ t.free }, true)

def new (capacity : ℕ) : Table T := (grow ⟨[], [], capacity, 0⟩).1

def slot (t : Table T) (i : ℕ) : Option (Slot T) := Pages.lookup PAGE t.pages i

def setSlot (t : Table T) (i : ℕ) (s : Slot T) : Table T :=
  { t with pages := Pages.write PAGE t.pages i s }

def insert (t : Table T) (value : T) : Table T × Option Key :=
  let grown := if t.free.isEmpty then t.grow else (t, true)
  if grown.2 then
    match grown.1.free with
    | [] => (grown.1, none)
    | i :: free =>
      match grown.1.slot i with
      | none => (grown.1, none) -- `expect`: a free index names a built slot
      | some s =>
        ({ grown.1.setSlot i { s with value := some value } with
            free := free
            live := grown.1.live + 1 }, some (pack s.generation i))
  else (t, none)

def get (t : Table T) (key : Key) : Option T :=
  match t.slot (index key) with
  | none => none
  | some s => if s.generation = generationOf key then s.value else none

def getMut (t : Table T) (key : Key) : Option (T × (T → Table T)) :=
  match t.slot (index key) with
  | none => none
  | some s =>
    if s.generation = generationOf key then
      s.value.map (fun v => (v, fun w => t.setSlot (index key) { s with value := some w }))
    else none

def modify (t : Table T) (key : Key) (f : T → T) : Table T :=
  match t.getMut key with
  | none => t
  | some (v, write) => write (f v)

def remove (t : Table T) (key : Key) : Table T × Option T :=
  match t.slot (index key) with
  | none => (t, none)
  | some s =>
    if s.generation ≠ generationOf key then (t, none)
    else
      match s.value with
      | none => (t, none)
      | some value =>
        if s.generation + 1 ≤ lastGeneration then
          ({ t.setSlot (index key) ⟨s.generation + 1, none⟩ with
              free := index key :: t.free
              live := t.live - 1 }, some value)
        else (t.setSlot (index key) ⟨s.generation, none⟩, some value)

end Table

end Turnloop
