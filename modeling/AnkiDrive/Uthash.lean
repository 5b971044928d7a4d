import AnkiDrive.Lib.Links

/-! `uthash.h`: the hash table of the scanner. A table is built out of the handles that lie in
its elements: `prev` and `next` link them in the order of insertion, `hh_prev` and `hh_next`
in the chain of their bucket. -/
namespace AnkiDrive
open CModel

/-- The address of an element; its handle lies at a fixed offset (`hho`) in it. -/
abbrev Ptr := Nat

/-- `UT_hash_handle`; `key` is the `keylen` bytes that its pointer leads to. -/
structure HashHandle where
  prev : Option Ptr
  next : Option Ptr
  hhPrev : Option Ptr
  hhNext : Option Ptr
  key : List UInt8
  hashv : UInt32

structure HashBucket where
  hhHead : Option Ptr
  count : Nat
  expandMult : Nat

/-- `UT_hash_table`. Its counters are `unsigned`, and numbers here: with at most `2^28` additions and
without a block for `2^31` buckets none of them wraps, nor what a length is compared with. -/
structure HashTable where
  buckets : List HashBucket
  numBuckets : Nat
  log2NumBuckets : Nat
  numItems : Nat
  tail : Option Ptr
  idealChainMaxlen : Nat
  nonidealItems : Nat
  ineffExpands : Nat
  noexpand : Nat

abbrev Handles := Ptr → HashHandle

/-- The memory of the elements, the pointer `head` and, while it is not null, the table
that every handle points to. -/
structure Uthash where
  hh : Handles
  head : Option Ptr
  tbl : HashTable

/-- `head = NULL`: there is no table. -/
def Uthash.null (hh : Handles) : Uthash where
  hh := hh
  head := none
  tbl := {
    buckets := []
    numBuckets := 0
    log2NumBuckets := 0
    numItems := 0
    tail := none
    idealChainMaxlen := 0
    nonidealItems := 0
    ineffExpands := 0
    noexpand := 0 }

/-- How a macro does not come to its end: `uthash_fatal` because no block of that size is left,
`HASH_OOPS`, or a loop over a chain that does not stop. -/
inductive HashStop where
  | outOfMemory (size : Nat)
  | oops
  | endless
  deriving DecidableEq

def store (change : HashHandle → HashHandle) (hh : Handles) (p : Ptr) : Handles :=
  fun q => if q = p then change (hh p) else hh q

def setNext (hh : Handles) (p : Ptr) (o : Option Ptr) : Handles :=
  store (fun h => { h with next := o }) hh p

def setPrev (hh : Handles) (p : Ptr) (o : Option Ptr) : Handles :=
  store (fun h => { h with prev := o }) hh p

def setHhNext (hh : Handles) (p : Ptr) (o : Option Ptr) : Handles :=
  store (fun h => { h with hhNext := o }) hh p

def setHhPrev (hh : Handles) (p : Ptr) (o : Option Ptr) : Handles :=
  store (fun h => { h with hhPrev := o }) hh p

def setKey (hh : Handles) (p : Ptr) (key : List UInt8) : Handles :=
  store (fun h => { h with key := key }) hh p

def setHashv (hh : Handles) (p : Ptr) (hashv : UInt32) : Handles :=
  store (fun h => { h with hashv := hashv }) hh p

/-- A store that is made `if (p)`. -/
def storeIf (set : Handles → Ptr → Option Ptr → Handles) (hh : Handles) (p o : Option Ptr) :
    Handles :=
  match p with
  | none => hh
  | some p => set hh p o

/-- The links in the order of insertion. -/
def appLinks (hh : Handles) : Links Ptr where
  next p := (hh p).next
  prev p := (hh p).prev

/-- The links in the chains of the buckets. -/
def bktLinks (hh : Handles) : Links Ptr where
  next p := (hh p).hhNext
  prev p := (hh p).hhPrev

def hashJen.mix (a b c : UInt32) : UInt32 × UInt32 × UInt32 :=
  let a := (a - b - c) ^^^ (c >>> 13)
  let b := (b - c - a) ^^^ (a <<< 8)
  let c := (c - a - b) ^^^ (b >>> 13)
  let a := (a - b - c) ^^^ (c >>> 12)
  let b := (b - c - a) ^^^ (a <<< 16)
  let c := (c - a - b) ^^^ (b >>> 5)
  let a := (a - b - c) ^^^ (c >>> 3)
  let b := (b - c - a) ^^^ (a <<< 10)
  let c := (c - a - b) ^^^ (b >>> 15)
  (a, b, c)

def hashJen.word (k0 k1 k2 k3 : UInt8) : UInt32 :=
  k0.toUInt32 + (k1.toUInt32 <<< 8) + (k2.toUInt32 <<< 16) + (k3.toUInt32 <<< 24)

/-- The `while` loop, and what is left of the key behind it. -/
def hashJen.blocks : List UInt8 → UInt32 → UInt32 → UInt32 →
    List UInt8 × UInt32 × UInt32 × UInt32
  | k0 :: k1 :: k2 :: k3 :: k4 :: k5 :: k6 :: k7 :: k8 :: k9 :: k10 :: k11 :: key, i, j, hashv =>
    let (i, j, hashv) := hashJen.mix (i + hashJen.word k0 k1 k2 k3) (j + hashJen.word k4 k5 k6 k7)
      (hashv + hashJen.word k8 k9 k10 k11)
    hashJen.blocks key i j hashv
  | key, i, j, hashv => (key, i, j, hashv)

/-- The cases of the `switch` fall through: a byte that is not there adds nothing. -/
def hashJen (key : List UInt8) : UInt32 :=
  let (rest, i, j, hashv) := hashJen.blocks key 0x9e3779b9 0x9e3779b9 0xfeedbeef
  let byte := fun n => rest.getD n 0
  let hashv := hashv + UInt32.ofNat key.length
  let hashv := hashv + ((byte 10).toUInt32 <<< 24) + ((byte 9).toUInt32 <<< 16) +
    ((byte 8).toUInt32 <<< 8)
  let j := j + hashJen.word (byte 4) (byte 5) (byte 6) (byte 7)
  let i := i + hashJen.word (byte 0) (byte 1) (byte 2) (byte 3)
  (hashJen.mix i j hashv).2.2

def hashInitialNumBuckets : Nat := 32
def hashInitialNumBucketsLog2 : Nat := 5
def hashBktCapacityThresh : Nat := 10

def HashTable.size : Nat := 64
def HashBucket.size : Nat := 16

def HashBucket.zero : HashBucket where
  hhHead := none
  count := 0
  expandMult := 0

def hashToBkt (hashv : UInt32) (numBkts : Nat) : Nat := hashv.toNat &&& (numBkts - 1)

/-- The `while` loop, for at most that many steps. -/
def hashFindInBkt (hh : Handles) (key : List UInt8) : Nat → Option Ptr →
    Except HashStop (Option Ptr)
  | _, none => .ok none
  | 0, some _ => .error .endless
  | steps + 1, some out =>
    if (hh out).key.length = key.length ∧ (hh out).key = key then .ok (some out)
    else hashFindInBkt hh key steps (hh out).hhNext

/-- What `HASH_EXPAND_BUCKETS` works on. -/
structure Expansion where
  hh : Handles
  newBuckets : List HashBucket
  nonidealItems : Nat

def hashExpandBuckets.item (numBuckets ideal : Nat) (e : Expansion) (thh : Ptr) : Expansion :=
  let bkt := hashToBkt (e.hh thh).hashv (numBuckets * 2)
  let newbkt := e.newBuckets.getD bkt HashBucket.zero
  let count := newbkt.count + 1
  let crowded := ideal < count
  let hh := setHhPrev e.hh thh none
  let hh := setHhNext hh thh newbkt.hhHead
  { hh := storeIf setHhPrev hh newbkt.hhHead (some thh)
    newBuckets := e.newBuckets.set bkt {
      hhHead := some thh
      count := count
      expandMult := if crowded then count / ideal else newbkt.expandMult }
    nonidealItems := if crowded then e.nonidealItems + 1 else e.nonidealItems }

def hashExpandBuckets.chain (numBuckets ideal : Nat) : Nat → Option Ptr → Expansion →
    Except HashStop Expansion
  | _, none, e => .ok e
  | 0, some _, _ => .error .endless
  | steps + 1, some thh, e =>
    let nxt := (e.hh thh).hhNext
    hashExpandBuckets.chain numBuckets ideal steps nxt
      (hashExpandBuckets.item numBuckets ideal e thh)

def hashExpandBuckets.chains (numBuckets ideal steps : Nat) : List HashBucket → Expansion →
    Except HashStop Expansion
  | [], e => .ok e
  | b :: buckets, e => do
    let e ← hashExpandBuckets.chain numBuckets ideal steps b.hhHead e
    hashExpandBuckets.chains numBuckets ideal steps buckets e

/-- `malloc` tells whether there is a block of a size; `2 * num_buckets` is an `unsigned`. -/
def hashExpandBuckets (malloc : Nat → Bool) (hh : Handles) (tbl : HashTable) :
    Except HashStop (Handles × HashTable) :=
  let size := (2 * tbl.numBuckets) % 0x100000000 * HashBucket.size
  if malloc size = false then .error (.outOfMemory size)
  else do
    let ideal := (tbl.numItems >>> (tbl.log2NumBuckets + 1)) +
      (if tbl.numItems &&& (tbl.numBuckets * 2 - 1) ≠ 0 then 1 else 0)
    let e ← hashExpandBuckets.chains tbl.numBuckets ideal tbl.numItems tbl.buckets {
      hh := hh
      newBuckets := List.replicate (2 * tbl.numBuckets) HashBucket.zero
      nonidealItems := 0 }
    let ineffExpands := if tbl.numItems >>> 1 < e.nonidealItems then tbl.ineffExpands + 1 else 0
    return (e.hh, { tbl with
      buckets := e.newBuckets
      numBuckets := tbl.numBuckets * 2
      log2NumBuckets := tbl.log2NumBuckets + 1
      idealChainMaxlen := ideal
      nonidealItems := e.nonidealItems
      ineffExpands := ineffExpands
      noexpand := if 1 < ineffExpands then 1 else tbl.noexpand })

def hashAddToBkt (malloc : Nat → Bool) (hh : Handles) (tbl : HashTable) (bkt : Nat) (addhh : Ptr) :
    Except HashStop (Handles × HashTable) :=
  let b := tbl.buckets.getD bkt HashBucket.zero
  let hh := setHhNext hh addhh b.hhHead
  let hh := setHhPrev hh addhh none
  let hh := storeIf setHhPrev hh b.hhHead (some addhh)
  let b := { b with count := b.count + 1, hhHead := some addhh }
  let tbl := { tbl with buckets := tbl.buckets.set bkt b }
  if (b.expandMult + 1) * hashBktCapacityThresh ≤ b.count ∧ tbl.noexpand ≠ 1 then
    hashExpandBuckets malloc hh tbl
  else .ok (hh, tbl)

def hashDelInBkt (hh : Handles) (b : HashBucket) (del : Ptr) : Handles × HashBucket :=
  let hhHead := if b.hhHead = some del then (hh del).hhNext else b.hhHead
  let hh := storeIf setHhNext hh (hh del).hhPrev (hh del).hhNext
  let hh := storeIf setHhPrev hh (hh del).hhNext (hh del).hhPrev
  (hh, { b with count := b.count - 1, hhHead := hhHead })

namespace Uthash

def hashMakeTable (malloc : Nat → Bool) (head : Ptr) : Except HashStop HashTable :=
  let size := hashInitialNumBuckets * HashBucket.size
  if malloc HashTable.size = false then .error (.outOfMemory HashTable.size)
  else if malloc size = false then .error (.outOfMemory size)
  else .ok {
    buckets := List.replicate hashInitialNumBuckets HashBucket.zero
    numBuckets := hashInitialNumBuckets
    log2NumBuckets := hashInitialNumBucketsLog2
    numItems := 0
    tail := some head
    idealChainMaxlen := 0
    nonidealItems := 0
    ineffExpands := 0
    noexpand := 0 }

variable (hashFcn : List UInt8 → UInt32)

def hashFind (u : Uthash) (key : List UInt8) : Except HashStop (Option Ptr) :=
  match u.head with
  | none => .ok none
  | some _ =>
    let bkt := hashToBkt (hashFcn key) u.tbl.numBuckets
    hashFindInBkt u.hh key u.tbl.numItems (u.tbl.buckets.getD bkt HashBucket.zero).hhHead

/-- `HASH_ADD_KEYPTR` behind the test of `head`: the item goes to the end of the order and into
its bucket. -/
def hashAddKeyptr.file (malloc : Nat → Bool) (hh : Handles) (head : Ptr) (tail : Option Ptr)
    (tbl : HashTable) (key : List UInt8) (add : Ptr) : Except HashStop Uthash := do
  let hh := setPrev (storeIf setNext hh tail (some add)) add tail
  let tbl := { tbl with tail := some add, numItems := tbl.numItems + 1 }
  let hashv := hashFcn key
  let hh := setHashv hh add hashv
  let (hh, tbl) ← hashAddToBkt malloc hh tbl (hashToBkt hashv tbl.numBuckets) add
  return { hh := hh, head := some head, tbl := tbl }

def hashAddKeyptr (malloc : Nat → Bool) (u : Uthash) (key : List UInt8) (add : Ptr) :
    Except HashStop Uthash :=
  let hh := setKey (setNext u.hh add none) add key
  match u.head with
  | none => do
    let tbl ← hashMakeTable malloc add
    hashAddKeyptr.file hashFcn malloc hh add none tbl key add
  | some head => hashAddKeyptr.file hashFcn malloc hh head u.tbl.tail u.tbl key add

/-- With neither neighbour the element is the last one, and the table is freed. -/
def hashDelete (u : Uthash) (del : Ptr) : Uthash :=
  if (u.hh del).prev = none ∧ (u.hh del).next = none then { u with head := none }
  else
    let tail := if u.tbl.tail = some del then (u.hh del).prev else u.tbl.tail
    let head := if (u.hh del).prev = none then (u.hh del).next else u.head
    let hh := storeIf setNext u.hh (u.hh del).prev (u.hh del).next
    let hh := storeIf setPrev hh (hh del).next (hh del).prev
    let bkt := hashToBkt (hh del).hashv u.tbl.numBuckets
    let (hh, b) := hashDelInBkt hh (u.tbl.buckets.getD bkt HashBucket.zero) del
    { hh := hh
      head := head
      tbl := { u.tbl with
        buckets := u.tbl.buckets.set bkt b
        tail := tail
        numItems := u.tbl.numItems - 1 } }

/-- A loop over a chain that checks the links back and counts, for at most that many steps. -/
def hashFsck.chain (l : Links Ptr) : Nat → Option Ptr → Option Ptr → Nat → Except HashStop Nat
  | _, _, none, count => .ok count
  | 0, _, some _, _ => .error .endless
  | steps + 1, prev, some thh, count =>
    if prev ≠ l.prev thh then .error .oops
    else hashFsck.chain l steps (some thh) (l.next thh) (count + 1)

def hashFsck.buckets (hh : Handles) (steps : Nat) : List HashBucket → Nat → Except HashStop Nat
  | [], count => .ok count
  | b :: bs, count => do
    let bktCount ← hashFsck.chain (bktLinks hh) steps none b.hhHead 0
    if b.count ≠ bktCount then .error .oops
    else hashFsck.buckets hh steps bs (count + bktCount)

def hashFsck (u : Uthash) : Except HashStop Unit :=
  match u.head with
  | none => .ok ()
  | some head => do
    let count ← hashFsck.buckets u.hh u.tbl.numItems u.tbl.buckets 0
    if count ≠ u.tbl.numItems then .error .oops
    else
      let count ← hashFsck.chain (appLinks u.hh) u.tbl.numItems none (some head) 0
      if count ≠ u.tbl.numItems then .error .oops else .ok ()

def hashIter.loop (hh : Handles) : Nat → Option Ptr → Except HashStop (List Ptr)
  | _, none => .ok []
  | 0, some _ => .error .endless
  | steps + 1, some el => do
    let rest ← hashIter.loop hh steps (hh el).next
    return el :: rest

def hashIter (u : Uthash) : Except HashStop (List Ptr) :=
  match u.head with
  | none => .ok []
  | some head => hashIter.loop u.hh u.tbl.numItems (some head)

end Uthash

end AnkiDrive
