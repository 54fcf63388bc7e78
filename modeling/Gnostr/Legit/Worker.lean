/-
The workers of the commit miner, `legit/src/worker.rs`.
-/
import Gnostr.Lib.Decimal
import Gnostr.Lib.Digits
import Gnostr.Lib.Lines

namespace Gnostr

namespace Legit

/-- A moment, and how far the local time is ahead of UTC, both in seconds. -/
structure OffsetDateTime where
  unixTimestamp : ℤ
  offset : ℤ

/-- `[unix_timestamp] [offset_hour sign:mandatory][offset_minute]`. -/
def OffsetDateTime.format (time : OffsetDateTime) : String :=
  String.ofList (decimalInt time.unixTimestamp ++ ' ' ::
    (if time.offset < 0 then '-' else '+') ::
      (paddedDigits 10 2 (time.offset.natAbs / 3600) ++
        paddedDigits 10 2 (time.offset.natAbs / 60 % 60)))

/-- A hasher, which has been fed some bytes. -/
structure Hasher where
  input : Bytes

namespace Hasher

def new : Hasher := ⟨[]⟩

def reset (_ : Hasher) : Hasher := new

def inputStr (hasher : Hasher) (text : String) : Hasher := ⟨hasher.input ++ utf8 text⟩

def resultStr (sha1 : Bytes → Vector UInt8 20) (hex : Hex) (hasher : Hasher) : String :=
  hex.encode (sha1 hasher.input).toList

end Hasher

structure Worker where
  id : UInt32
  digest : Hasher
  target : String
  tree : String
  parent : String
  author : String
  message : String
  timestamp : OffsetDateTime

/-- What a worker sends to the miner. -/
structure Report where
  id : UInt32
  blob : String
  hash : String

/-- A thread that is about to try a value, or one that has come to an end. -/
inductive WorkerThread
  | trying (worker : Worker) (value : UInt32)
  | ended

/-- `value += 1`, which panics at the largest value if overflow is checked for. -/
def increment (overflowChecks : Bool) (value : UInt32) : Option UInt32 :=
  if overflowChecks ∧ value.toNat + 1 = 2 ^ 32 then none else some (value + 1)

namespace Worker

/-- What two candidates of a worker have in common. -/
def candidateHead (worker : Worker) (tstamp : String) : String :=
  "tree " ++ worker.tree ++ "\nparent " ++ worker.parent ++
    "\nauthor " ++ worker.author ++ " " ++ tstamp ++
    "\ncommitter " ++ worker.author ++ " " ++ tstamp ++ "\n\n" ++ worker.message ++ "\n\n"

/-- `{:02}-{:08x}`. -/
def candidateTail (id value : UInt32) : String :=
  String.ofList (paddedDigits 10 2 id.toNat ++ '-' :: paddedDigits 16 8 value.toNat)

/-- The candidate, and what is hashed of it. -/
def generateBlob (worker : Worker) (value : UInt32) (tstamp : String) : String × String :=
  let raw := worker.candidateHead tstamp ++ candidateTail worker.id value
  let blob := "commit " ++ toString (utf8 raw).length ++ "\x00" ++ raw
  (raw, blob)

variable (sha1 : Bytes → Vector UInt8 20) (hex : Hex)

def calculate (worker : Worker) (blob : String) : Worker × String :=
  let digest := worker.digest.reset.inputStr blob
  ({ worker with digest }, digest.resultStr sha1 hex)

/-- One turn of the loop of `work`, and what it sends. -/
def iterate (overflowChecks : Bool) (worker : Worker) (value : UInt32) :
    WorkerThread × List Report :=
  let (raw, blob) := worker.generateBlob value worker.timestamp.format
  let (worker, result) := worker.calculate sha1 hex blob
  if worker.target.toList.isPrefixOf result.toList then
    (.ended, [⟨worker.id, raw, result⟩])
  else
    match increment overflowChecks value with
    | some value => (.trying worker value, [])
    | none => (.ended, [])

end Worker

/-- The id git gives to an object: the hash of a header and its bytes. -/
def gitObjectId (sha1 : Bytes → Vector UInt8 20) (hex : Hex) (kind : String)
    (bytes : Bytes) : String :=
  hex.encode (sha1 (utf8 (kind ++ " " ++ toString bytes.length ++ "\x00") ++ bytes)).toList

section Candidates

variable (sha1 : Bytes → Vector UInt8 20) (hex : Hex) (worker : Worker)

/-- The header has the length in bytes, as git's own. -/
theorem calculate_generateBlob (value : UInt32) (tstamp : String) :
    (worker.calculate sha1 hex (worker.generateBlob value tstamp).2).2 =
      gitObjectId sha1 hex "commit" (utf8 (worker.generateBlob value tstamp).1) := by
  have hbytes : utf8 (worker.generateBlob value tstamp).2 =
      utf8 ("commit " ++ toString (utf8 (worker.generateBlob value tstamp).1).length ++
        "\x00") ++ utf8 (worker.generateBlob value tstamp).1 := utf8_append _ _
  rw [Worker.calculate, Hasher.resultStr, Hasher.reset, Hasher.new, Hasher.inputStr,
    List.nil_append, hbytes]
  rfl

theorem candidateTail_injective {id id' value value' : UInt32}
    (hsame : Worker.candidateTail id value = Worker.candidateTail id' value') :
    id = id' ∧ value = value' := by
  have hdash : '-' ∉ Hex.hexDigits := by decide
  have hcut (id value : UInt32) :
      splitOnce '-' (Worker.candidateTail id value).toList =
        some (paddedDigits 10 2 id.toNat, paddedDigits 16 8 value.toNat) := by
    rw [Worker.candidateTail, String.toList_ofList]
    exact splitOnce_append (not_mem_paddedDigits (by decide) (by decide) hdash 2 _) _
  have hparts := (hcut id value).symm.trans (hsame ▸ hcut id' value')
  rw [Option.some.injEq, Prod.mk.injEq] at hparts
  exact ⟨UInt32.toNat_inj.mp (paddedDigits_injective (by decide) (by decide) 2 hparts.1),
    UInt32.toNat_inj.mp (paddedDigits_injective (by decide) (by decide) 8 hparts.2)⟩

/-- What is hashed determines the candidate: the first zero byte ends the header. -/
theorem raw_eq_of_blob_eq {first second : Worker} {value value' : UInt32} {tstamp : String}
    (hblob : (first.generateBlob value tstamp).2 = (second.generateBlob value' tstamp).2) :
    (first.generateBlob value tstamp).1 = (second.generateBlob value' tstamp).1 := by
  have hheader (length : ℕ) : '\x00' ∉ ("commit " ++ toString length).toList := by
    have hdigits : (toString length).toList = decimal length := Nat.toList_repr
    rw [String.toList_append, hdigits, List.mem_append, not_or]
    exact ⟨by decide, not_mem_decimal (by decide) length⟩
  have hcut (length : ℕ) (raw : String) :
      splitOnce '\x00' ("commit " ++ toString length ++ "\x00" ++ raw).toList =
        some (("commit " ++ toString length).toList, raw.toList) := by
    have hzero : "\x00".toList ++ raw.toList = '\x00' :: raw.toList := rfl
    rw [String.toList_append, String.toList_append, List.append_assoc, hzero,
      splitOnce_append (hheader length)]
  have hparts := (hcut _ _).symm.trans ((congrArg (splitOnce '\x00' ·.toList) hblob).trans
    (hcut _ _))
  rw [Option.some.injEq, Prod.mk.injEq] at hparts
  exact String.toList_inj.mp hparts.2

/-- Workers that differ in nothing but the id have no candidate in common. -/
theorem generateBlob_injective {tstamp : String} {id id' value value' : UInt32}
    (hsame : (({ worker with id } : Worker).generateBlob value tstamp).1 =
      (({ worker with id := id' } : Worker).generateBlob value' tstamp).1) :
    id = id' ∧ value = value' := by
  have hraw : worker.candidateHead tstamp ++ Worker.candidateTail id value =
      worker.candidateHead tstamp ++ Worker.candidateTail id' value' := hsame
  rw [String.append_right_inj] at hraw
  exact candidateTail_injective hraw

end Candidates

end Legit

end Gnostr
