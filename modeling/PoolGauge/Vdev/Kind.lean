import PoolGauge.Number.Whole

/-!
# Kinds of vdev

A group is labelled by its kind and a number; a label that names no group is a device. Sections
of the status table have a kind of their own.
-/
namespace PoolGauge

inductive VdevKind where
  | root | mirror | raidz1 | raidz2 | raidz3 | draid | disk | file | spare | log | cache
  | special | dedup | replacing | indirect
deriving DecidableEq, Repr

namespace VdevKind

def all : List VdevKind :=
  [root, mirror, raidz1, raidz2, raidz3, draid, disk, file, spare, log, cache, special, dedup,
    replacing, indirect]

def word : VdevKind → String
  | root => "root"
  | mirror => "mirror"
  | raidz1 => "raidz1"
  | raidz2 => "raidz2"
  | raidz3 => "raidz3"
  | draid => "draid"
  | disk => "disk"
  | file => "file"
  | spare => "spare"
  | log => "log"
  | cache => "cache"
  | special => "special"
  | dedup => "dedup"
  | replacing => "replacing"
  | indirect => "indirect"

/-- Whether the kind is a device and not a group. -/
def isLeaf : VdevKind → Bool
  | disk | file => true
  | _ => false

/-- The part of a label before a hyphen and a number that end it. -/
def groupWord? (label : List Char) : Option (List Char) :=
  let backwards := label.reverse
  let number := backwards.takeWhile fun c => (Number.digit? c).isSome
  match backwards.dropWhile fun c => (Number.digit? c).isSome with
  | '-' :: rest => if number.isEmpty then none else some rest.reverse
  | _ => none

def ofGroupWord? : String → Option VdevKind
  | "mirror" => some mirror
  | "raidz" => some raidz1
  | "raidz1" => some raidz1
  | "raidz2" => some raidz2
  | "raidz3" => some raidz3
  | "spare" => some spare
  | "replacing" => some replacing
  | "indirect" => some indirect
  | _ => none

/-- The kind of a label that names no numbered group: distributed groups carry their layout, and
a path outside the device directory is a file. -/
def ofPlainLabel (label : List Char) : VdevKind :=
  if "draid".toList.isPrefixOf label && label.contains ':' then draid
  else if "/".toList.isPrefixOf label && !"/dev/".toList.isPrefixOf label then file
  else disk

def ofLabel (label : String) : VdevKind :=
  let group := (groupWord? label.toList).bind fun word => ofGroupWord? (String.ofList word)
  group.getD (ofPlainLabel label.toList)

/-- The kind of the branch that a section of the status table opens. -/
def ofSection? : String → Option VdevKind
  | "logs" => some log
  | "cache" => some cache
  | "spares" => some spare
  | "special" => some special
  | "dedup" => some dedup
  | _ => none

theorem mem_all (k : VdevKind) : k ∈ all := by
  cases k <;> decide

theorem not_isLeaf_of_ofSection? {word : String} {k : VdevKind} (h : ofSection? word = some k) :
    k.isLeaf = false := by
  unfold ofSection? at h
  split at h <;> simp_all <;> subst h <;> rfl

end VdevKind

end PoolGauge
