import Paio.Library.CString
import Paio.Library.FieldMemory
import Paio.Library.StructLayout
import Paio.RulesParser

/-!
# Paio.StageInfo

`StageInfo::serialize`, which copies four texts and two numbers into a `StageInfoRaw`. A text is
copied by `strcpy`, with its terminator, once its length was compared with the size of its field. A
text that is exactly as long as its field passes the comparison, and its terminator is written to
the byte behind the field. `serialized_iff` says that nothing else goes wrong.
-/

namespace Paio

open CString (cString)
open FieldMemory (Memory Store)

/-- The two sizes that `limits.h` or the header defines, `HOST_NAME_MAX` and `LOGIN_NAME_MAX`. -/
structure NameLimits where
  hostNameMax : Nat
  loginNameMax : Nat
  deriving DecidableEq, Repr

/-- The sizes that the header defines where `limits.h` does not. -/
def NameLimits.default : NameLimits := ⟨64, 64⟩

def stageNameMaxSize : Nat := 200

def stageOptMaxSize : Nat := 50

/-- The members of `StageInfoRaw`. -/
inductive RawField where
  | stageName
  | stageOpt
  | pid
  | ppid
  | stageHostname
  | stageLoginName
  deriving DecidableEq, Repr

namespace RawField

def size (limits : NameLimits) : RawField → Nat
  | stageName => stageNameMaxSize
  | stageOpt => stageOptMaxSize
  | pid => 4
  | ppid => 4
  | stageHostname => limits.hostNameMax
  | stageLoginName => limits.loginNameMax

/-- The two bytes before `m_pid` are padding. -/
def offset (limits : NameLimits) : RawField → Nat
  | stageName => 0
  | stageOpt => 200
  | pid => 252
  | ppid => 256
  | stageHostname => 260
  | stageLoginName => 260 + limits.hostNameMax

def isText : RawField → Bool
  | pid | ppid => false
  | _ => true

end RawField

/-- `StageInfoRaw` in memory. -/
def rawLayout (limits : NameLimits) : FieldMemory.Layout RawField where
  offset := RawField.offset limits
  size := RawField.size limits
  disjoint := by
    intro f g hne
    cases f <;> cases g <;>
      simp only [RawField.offset, RawField.size, stageNameMaxSize, stageOptMaxSize] <;>
      first | exact absurd rfl hne | omega

structure StageInfo where
  name : Text
  opt : Text
  pid : Int
  ppid : Int
  hostname : Text
  loginName : Text
  pid_isSigned : StructLayout.IsSigned 32 pid
  ppid_isSigned : StructLayout.IsSigned 32 ppid

namespace StageInfo

/-- `strcpy` from `c_str ()` to a field. -/
def strcpy (field : RawField) (s : Text) : Store RawField := ⟨field, cString s ++ [0]⟩

def assign (field : RawField) (x : Int) : Store RawField :=
  ⟨field, StructLayout.toBytes 4 (StructLayout.unsigned 32 x)⟩

/-- A text that is compared with the size of its field and copied. -/
def copy (what : String) (maxSize : Nat) (field : RawField) (s : Text) :
    Except String (Store RawField) :=
  if maxSize < s.length then
    .error ("StageInfo's " ++ what ++ " is larger than " ++ toString maxSize ++ " bytes.")
  else .ok (strcpy field s)

/-- The same for a text that may be empty. -/
def copyUnlessEmpty (what : String) (maxSize : Nat) (field : RawField) (s : Text) :
    Except String (Store RawField) :=
  if s ≠ [] then copy what maxSize field s else .ok (strcpy field [])

/-- What `serialize` stores, in this order; an exception leaves the rest undone. -/
def serialize (limits : NameLimits) (info : StageInfo) : Except String (List (Store RawField)) := do
  let name ← copy "name" stageNameMaxSize .stageName info.name
  let opt ← copyUnlessEmpty "opt" stageOptMaxSize .stageOpt info.opt
  let hostname ← copyUnlessEmpty "hostname" limits.hostNameMax .stageHostname info.hostname
  let loginName ← copyUnlessEmpty "login name" limits.loginNameMax .stageLoginName info.loginName
  pure [name, opt, assign .pid info.pid, assign .ppid info.ppid, hostname, loginName]

/-! ## Reading the structure -/

/-- A text field as a C string that does not go beyond the field. -/
def readText (limits : NameLimits) (raw : Memory) (field : RawField) : Text :=
  cString (FieldMemory.content (rawLayout limits) raw field)

def readInt (limits : NameLimits) (raw : Memory) (field : RawField) : Int :=
  StructLayout.signed 32 (StructLayout.ofBytes (FieldMemory.content (rawLayout limits) raw field))

/-- What was serialized reads back. -/
structure ReadsBack (limits : NameLimits) (info : StageInfo) (raw : Memory) : Prop where
  name : readText limits raw .stageName = info.name
  opt : readText limits raw .stageOpt = info.opt
  pid : readInt limits raw .pid = info.pid
  ppid : readInt limits raw .ppid = info.ppid
  hostname : readText limits raw .stageHostname = info.hostname
  loginName : readText limits raw .stageLoginName = info.loginName

/-- Serializing throws, or it writes each text inside of its field and everything reads back. -/
def Serialized (limits : NameLimits) (info : StageInfo) (raw : Memory) : Prop :=
  (∃ what, info.serialize limits = .error what) ∨
    ∃ stores, info.serialize limits = .ok stores ∧
      (∀ s ∈ stores, s.field.isText = true → s.Inside (rawLayout limits)) ∧
      ReadsBack limits info (FieldMemory.applyAll (rawLayout limits) raw stores)

/-! ## Lengths -/

variable {limits : NameLimits} {info : StageInfo} {raw : Memory}

/-- Some text is longer than its field. -/
def TooLong (limits : NameLimits) (info : StageInfo) : Prop :=
  stageNameMaxSize < info.name.length ∨ stageOptMaxSize < info.opt.length ∨
    limits.hostNameMax < info.hostname.length ∨ limits.loginNameMax < info.loginName.length

/-- Every text is shorter than its field. -/
def Fits (limits : NameLimits) (info : StageInfo) : Prop :=
  info.name.length < stageNameMaxSize ∧ info.opt.length < stageOptMaxSize ∧
    info.hostname.length < limits.hostNameMax ∧ info.loginName.length < limits.loginNameMax

structure NulFree (info : StageInfo) : Prop where
  name : 0 ∉ info.name
  opt : 0 ∉ info.opt
  hostname : 0 ∉ info.hostname
  loginName : 0 ∉ info.loginName

/-- The stores of a call that does not throw. -/
def stores (info : StageInfo) : List (Store RawField) :=
  [strcpy .stageName info.name, strcpy .stageOpt info.opt, assign .pid info.pid,
    assign .ppid info.ppid, strcpy .stageHostname info.hostname,
    strcpy .stageLoginName info.loginName]

/-- The empty text needs no case of its own. -/
theorem copyUnlessEmpty_eq (what : String) (maxSize : Nat) (field : RawField) (s : Text) :
    copyUnlessEmpty what maxSize field s = copy what maxSize field s := by
  unfold copyUnlessEmpty
  by_cases hs : s = []
  · subst hs
    simp [copy]
  · rw [if_pos hs]

theorem copy_of_le {what : String} {maxSize : Nat} {field : RawField} {s : Text}
    (h : s.length ≤ maxSize) : copy what maxSize field s = .ok (strcpy field s) :=
  if_neg (by omega)

theorem length_le_of_copy {what : String} {maxSize : Nat} {field : RawField} {s : Text}
    {store : Store RawField} (h : copy what maxSize field s = .ok store) : s.length ≤ maxSize := by
  by_contra hlt
  rw [copy, if_pos (by omega)] at h
  cases h

theorem serialize_of_not_tooLong (h : ¬ TooLong limits info) :
    info.serialize limits = .ok info.stores := by
  simp only [TooLong, not_or, not_lt] at h
  obtain ⟨hname, hopt, hhostname, hloginName⟩ := h
  simp only [serialize, copyUnlessEmpty_eq, copy_of_le hname, copy_of_le hopt,
    copy_of_le hhostname, copy_of_le hloginName]
  rfl

theorem serialize_of_tooLong (h : TooLong limits info) :
    ∃ message, info.serialize limits = .error message := by
  cases hs : info.serialize limits with
  | error message => exact ⟨message, rfl⟩
  | ok stores =>
    simp only [serialize, copyUnlessEmpty_eq] at hs
    obtain ⟨_, hname, hs⟩ := bind_eq_ok.mp hs
    obtain ⟨_, hopt, hs⟩ := bind_eq_ok.mp hs
    obtain ⟨_, hhostname, hs⟩ := bind_eq_ok.mp hs
    obtain ⟨_, hloginName, _⟩ := bind_eq_ok.mp hs
    have hname := length_le_of_copy hname
    have hopt := length_le_of_copy hopt
    have hhostname := length_le_of_copy hhostname
    have hloginName := length_le_of_copy hloginName
    unfold TooLong at h
    omega

/-! ## The terminator -/

/-- A text stays inside of its field exactly when it leaves a byte for its terminator. -/
theorem inside_strcpy_iff {field : RawField} {s : Text} (h : 0 ∉ s) :
    (strcpy field s).Inside (rawLayout limits) ↔ s.length < field.size limits := by
  rw [Store.inside_iff, strcpy, CString.cString_eq_self h, List.length_append]
  rfl

theorem inside_assign {field : RawField} (h : field.size limits = 4) (x : Int) :
    (assign field x).Inside (rawLayout limits) := by
  rw [Store.inside_iff, assign, StructLayout.length_toBytes]
  exact h.ge

/-- All stores stay inside of their fields exactly when every text is shorter than its field. -/
theorem inside_stores_iff (h : info.NulFree) :
    (∀ s ∈ info.stores, s.field.isText = true → s.Inside (rawLayout limits)) ↔
      Fits limits info := by
  simp only [stores, List.forall_mem_cons, List.not_mem_nil, false_implies, implies_true, and_true,
    inside_strcpy_iff h.name, inside_strcpy_iff h.opt, inside_strcpy_iff h.hostname,
    inside_strcpy_iff h.loginName]
  simp [strcpy, assign, RawField.isText, RawField.size, Fits]

theorem nodup_stores : (info.stores.map Store.field).Nodup := by
  show [RawField.stageName, .stageOpt, .pid, .ppid, .stageHostname, .stageLoginName].Nodup
  decide

/-- A text that was stored inside of its field is read back. -/
theorem readText_of_content {field : RawField} {s : Text} (h : 0 ∉ s)
    (hcontent : ∃ tail, FieldMemory.content (rawLayout limits) raw field =
      (strcpy field s).bytes ++ tail) : readText limits raw field = s := by
  obtain ⟨tail, htail⟩ := hcontent
  rw [readText, htail, strcpy, CString.cString_eq_self h, List.append_assoc, List.singleton_append,
    CString.cString_append_nul h]

theorem readInt_of_content {field : RawField} {x : Int} (hsize : field.size limits = 4)
    (hx : StructLayout.IsSigned 32 x)
    (hcontent : ∃ tail, FieldMemory.content (rawLayout limits) raw field =
      (assign field x).bytes ++ tail) : readInt limits raw field = x := by
  obtain ⟨tail, htail⟩ := hcontent
  have hlength := congrArg List.length htail
  rw [FieldMemory.content, FieldMemory.length_bytesAt, List.length_append, assign,
    StructLayout.length_toBytes] at hlength
  have hnil : tail = [] := List.eq_nil_of_length_eq_zero (by
    have hfour : (rawLayout limits).size field = 4 := hsize
    omega)
  rw [readInt, htail, hnil, List.append_nil, assign, StructLayout.ofBytes_toBytes,
    StructLayout.signed_int hx]

/-- Stores that stay inside of their fields read back. -/
theorem readsBack_of_fits (hnul : info.NulFree) (h : Fits limits info) :
    ReadsBack limits info (FieldMemory.applyAll (rawLayout limits) raw info.stores) := by
  have htext := (inside_stores_iff hnul).mpr h
  have hinside : ∀ s ∈ info.stores, s.Inside (rawLayout limits) := by
    intro s hs
    cases htextual : s.field.isText with
    | true => exact htext s hs htextual
    | false =>
      simp only [stores, List.mem_cons, List.not_mem_nil, or_false] at hs
      obtain rfl | rfl | rfl | rfl | rfl | rfl := hs
      · cases htextual
      · cases htextual
      · exact inside_assign rfl info.pid
      · exact inside_assign rfl info.ppid
      · cases htextual
      · cases htextual
  have hcontent : ∀ s ∈ info.stores, ∃ tail, FieldMemory.content (rawLayout limits)
      (FieldMemory.applyAll (rawLayout limits) raw info.stores) s.field = s.bytes ++ tail :=
    fun s hs => FieldMemory.exists_content_applyAll hinside nodup_stores hs
  simp only [stores, List.forall_mem_cons, List.not_mem_nil, false_implies, implies_true, and_true]
    at hcontent
  obtain ⟨hname, hopt, hpid, hppid, hhostname, hloginName⟩ := hcontent
  exact ⟨readText_of_content hnul.name hname, readText_of_content hnul.opt hopt,
    readInt_of_content rfl info.pid_isSigned hpid, readInt_of_content rfl info.ppid_isSigned hppid,
    readText_of_content hnul.hostname hhostname, readText_of_content hnul.loginName hloginName⟩

theorem Fits.not_tooLong (h : Fits limits info) : ¬ TooLong limits info := by
  obtain ⟨hname, hopt, hhostname, hloginName⟩ := h
  rintro (h | h | h | h) <;> omega

/-- A call that does not throw does what it should only if every text leaves a byte free. -/
theorem fits_of_serialized (hnul : info.NulFree) (hlong : ¬ TooLong limits info)
    (h : Serialized limits info raw) : Fits limits info := by
  have hok := serialize_of_not_tooLong hlong
  rcases h with ⟨message, herror⟩ | ⟨written, hwritten, hinside, -⟩
  · rw [hok] at herror
    cases herror
  · obtain rfl : info.stores = written := Except.ok.inj (hok.symm.trans hwritten)
    exact (inside_stores_iff hnul).mp hinside

/-- Serializing does what it should exactly when it throws, as some text is longer than its field,
or when every text is shorter than its field: a text that fills its field is not rejected, and its
terminator goes to the next byte. -/
theorem serialized_iff (limits : NameLimits) (info : StageInfo) (raw : Memory)
    (h : info.NulFree) :
    Serialized limits info raw ↔ TooLong limits info ∨ Fits limits info := by
  constructor
  · intro hserialized
    by_cases hlong : TooLong limits info
    · exact .inl hlong
    · exact .inr (fits_of_serialized h hlong hserialized)
  · rintro (hlong | hfits)
    · exact .inl (serialize_of_tooLong hlong)
    · exact .inr ⟨info.stores, serialize_of_not_tooLong hfits.not_tooLong,
        (inside_stores_iff h).mpr hfits, readsBack_of_fits h hfits⟩

/-- A stage with this name. -/
def withName (name : Text) : StageInfo where
  name := name
  opt := text "opt"
  pid := 7
  ppid := 1
  hostname := text "host"
  loginName := []
  pid_isSigned := by decide
  ppid_isSigned := by decide

theorem nulFree_withName {name : Text} (h : 0 ∉ name) : (withName name).NulFree where
  name := h
  opt := show 0 ∉ text "opt" by decide
  hostname := show 0 ∉ text "host" by decide
  loginName := List.not_mem_nil

/-- A short name is read back. -/
theorem serialized_iff_short : Serialized .default (withName (text "stage")) fun _ => 0 := by
  have hfits : Fits .default (withName (text "stage")) := by
    unfold Fits
    decide
  exact (serialized_iff .default (withName (text "stage")) _
    (nulFree_withName (by decide))).mpr (.inr hfits)

/-- A name of 200 bytes is not rejected, and its terminator is written to `m_stage_opt`. -/
theorem full_name_leaves_field :
    (withName (List.replicate 200 112)).NulFree ∧
      ¬ Serialized .default (withName (List.replicate 200 112)) fun _ => 0 := by
  have hnul : (withName (List.replicate 200 112)).NulFree := by
    refine nulFree_withName fun hmem => ?_
    exact absurd (List.eq_of_mem_replicate hmem) (by decide)
  have hlength : (withName (List.replicate 200 112)).name.length = 200 := List.length_replicate
  refine ⟨hnul, fun hserialized => ?_⟩
  have hlong : ¬ TooLong .default (withName (List.replicate 200 112)) := by
    unfold TooLong
    rw [hlength]
    decide
  have hfits := fits_of_serialized hnul hlong hserialized
  have hlt : (withName (List.replicate 200 112)).name.length < 200 := hfits.1
  omega

end StageInfo

end Paio
