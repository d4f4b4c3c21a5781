/-
The digests that stand for passwords and tokens, in RAM and in flash
(`hash_password`, `constant_time_equal` in `auth_manager.cpp`).

* `Digest`: 32 bytes, of which `zero` are what a wiped buffer holds and `ofBytes`
  what reading a blob into one leaves;
* `hashPassword`: the digest of a string, unless it could not be computed;
* `Digest.equal_iff`: the comparison in constant time is equality.
-/
import ArcticController.Base.ConstantTime

namespace ArcticController

/-- 32 bytes. -/
abbrev Digest : Type := Vector UInt8 32

namespace Digest

def zero : Digest := Vector.replicate 32 0

/-- A wiped buffer after some bytes were read into it. -/
def ofBytes (bytes : List UInt8) : Digest := Vector.ofFn fun i => bytes.getD i 0

def equal (lhs rhs : Digest) : Bool := constantTimeEqual 32 lhs.toList rhs.toList

lemma equal_iff {lhs rhs : Digest} : lhs.equal rhs ↔ lhs = rhs := by
  rw [equal, constantTimeEqual_iff Vector.length_toList Vector.length_toList, Vector.toList_inj]

lemma ofBytes_append (digest : Digest) (rest : List UInt8) :
    ofBytes (digest.toList ++ rest) = digest := by
  refine Vector.ext fun i hi => ?_
  rw [ofBytes, Vector.getElem_ofFn, List.getD_eq_getElem _ _ (by simp; omega),
    List.getElem_append_left (by simpa using hi), Vector.getElem_toList]

@[simp] lemma ofBytes_toList (digest : Digest) : ofBytes digest.toList = digest := by
  rw [← List.append_nil digest.toList]
  exact ofBytes_append digest []

end Digest

/-- The digest of a string; computing it may fail. -/
def hashPassword (sha : List UInt8 → Digest) (hashed : Bool) (password : List UInt8) :
    Option Digest :=
  if hashed then some (sha password) else none

end ArcticController
