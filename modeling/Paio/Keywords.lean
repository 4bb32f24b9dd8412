import Paio.Library.HashSwitch
import Paio.RulesParser

/-!
# Paio.Keywords

The keywords of a rules file. Every converter but `convert_object_type` compares a text with its
keywords by a 32-bit hash alone, and the hash stops at the first NUL. A text that collides with a
keyword is taken for it: a keyword that goes on after a NUL, and short texts such as `p3r`, which
has the hash of `put`. `keywords_recognised_iff` says that the converters are exact for all other
texts.
-/

namespace Paio

namespace RulesParser

open HashSwitch (Recognises Uncollided Distinct)

/-! ## The tables -/

def housekeepingKeywords : List (String × HousekeepingOperation) :=
  [("create_channel", .createChannel), ("create_object", .createObject)]

def drlKeywords : List (String × Int) := [("init", 1), ("rate", 2), ("refill", 4)]

def contextKeywords : List (String × Int) :=
  [("general", 0), ("posix", 1), ("posix_meta", 2), ("lsm_kvs_simple", 3),
   ("lsm_kvs_detailed", 4), ("kvs", 5)]

def generalDefinitions : List (String × Int) :=
  [("foreground", 1), ("background", 2), ("high_priority", 3), ("low_priority", 4),
   ("no_op", 0)]

def posixDefinitions : List (String × Int) :=
  [("read", 1), ("write", 2), ("pread", 3), ("pwrite", 4), ("pread64", 5), ("pwrite64", 6),
   ("fread", 7), ("fwrite", 8), ("open", 9), ("open64", 10), ("creat", 11), ("creat64", 12),
   ("openat", 13), ("close", 14), ("fsync", 15), ("fdatasync", 16), ("sync", 17),
   ("syncfs", 18), ("truncate", 19), ("ftruncate", 21), ("truncate64", 20),
   ("ftruncate64", 22), ("xstat", 23), ("lxstat", 25), ("fxstat", 27), ("xstat64", 24),
   ("lxstat64", 26), ("fxstat64", 28), ("fxstatat", 29), ("fxstatat64", 30), ("statfs", 31),
   ("fstatfs", 33), ("statfs64", 32), ("fstatfs64", 34), ("link", 35), ("linkat", 36),
   ("unlink", 37), ("unlinkat", 38), ("rename", 39), ("renameat", 40), ("symlink", 41),
   ("symlinkat", 42), ("readlink", 43), ("readlinkat", 44), ("fopen", 45), ("fopen64", 46),
   ("freopen", 48), ("freopen64", 49), ("fclose", 50), ("fflush", 51), ("access", 52),
   ("faccessat", 53), ("lseek", 54), ("lseek64", 55), ("fseek", 56), ("fseek64", 57),
   ("ftell", 58), ("fseeko", 59), ("fseeko64", 60), ("ftello", 61), ("ftello64", 62),
   ("mkdir", 63), ("mkdirat", 64), ("rmdir", 70), ("opendir", 67), ("readdir", 65),
   ("readdir64", 66), ("fdopendir", 68), ("closedir", 69), ("dirfd", 71), ("getxattr", 72),
   ("lgetxattr", 73), ("fgetxattr", 74), ("setxattr", 75), ("lsetxattr", 76),
   ("fsetxattr", 77), ("removexattr", 81), ("lremovexattr", 82), ("fremovexattr", 83),
   ("listxattr", 78), ("llistxattr", 79), ("flistxattr", 80), ("chmod", 84), ("fchmod", 85),
   ("fchmodat", 86), ("chown", 87), ("fchown", 89), ("fchownat", 90), ("lchown", 88),
   ("no_op", 0)]

def posixMetaDefinitions : List (String × Int) :=
  [("foreground", 1), ("background", 2), ("high_priority", 3), ("med_priority", 4),
   ("low_priority", 5), ("data_op", 6), ("meta_op", 7), ("dir_op", 8), ("ext_attr_op", 9),
   ("file_mod_op", 10), ("no_op", 0)]

def lsmSimpleDefinitions : List (String × Int) :=
  [("bg_flush", 1), ("bg_compaction_high_priority", 2), ("bg_compaction_low_priority", 3),
   ("foreground", 4), ("background", 5), ("no_op", 0)]

def lsmDetailedDefinitions : List (String × Int) :=
  [("bg_flush", 1), ("bg_compaction", 2), ("bg_compaction_L0_L0", 3),
   ("bg_compaction_L0_L1", 4), ("bg_compaction_L1_L2", 5), ("bg_compaction_L2_L3", 6),
   ("bg_compaction_LN", 7), ("foreground", 8), ("no_op", 0)]

def kvsDefinitions : List (String × Int) :=
  [("put", 1), ("get", 2), ("new_iterator", 3), ("delete", 4), ("write", 5),
   ("get_snapshot", 6), ("get_property", 7), ("get_approximate_size", 8),
   ("compact_range", 9), ("no_op", 0)]

/-- The definitions of one context and its name in the exception of its converter. -/
structure ContextDefinitions where
  name : String
  definitions : List (String × Int)
  deriving DecidableEq

def contextTables : List (String × ContextDefinitions) :=
  [("general", ⟨"PAIO_GENERAL", generalDefinitions⟩), ("posix", ⟨"POSIX", posixDefinitions⟩),
   ("posix_meta", ⟨"POSIX_META", posixMetaDefinitions⟩),
   ("lsm_kvs_simple", ⟨"LSM_KVS_SIMPLE", lsmSimpleDefinitions⟩),
   ("lsm_kvs_detailed", ⟨"LSM_KVS_DETAILED", lsmDetailedDefinitions⟩),
   ("kvs", ⟨"KVS", kvsDefinitions⟩)]

/-- The exception for an unknown definition. -/
def unknownDefinition (name : String) : Except ParseFault Int := convertDefinitions name [] []

/-! ## The converters are switches -/

theorem switchOn_eq_select {α : Type} (table : List (String × α)) (s : Text) :
    switchOn table s = HashSwitch.select text hash table s := rfl

theorem convertDefinitions_eq (name : String) (table : List (String × Int)) (s : Text) :
    convertDefinitions name table s =
      ((HashSwitch.select text hash table s).map Except.ok).getD (unknownDefinition name) := by
  rw [← switchOn_eq_select, convertDefinitions]
  cases switchOn table s <;> rfl

theorem convertDifferentiationDefinitions_eq (contextType s : Text) :
    convertDifferentiationDefinitions contextType s =
      ((HashSwitch.select text hash contextTables contextType).map fun context =>
        convertDefinitions context.name context.definitions s).getD (.ok (-1)) := by
  have htables : ∀ table : List (String × ContextDefinitions),
      switchOn (table.map fun c => (c.1, convertDefinitions c.2.name c.2.definitions)) contextType =
        (HashSwitch.select text hash table contextType).map fun context =>
          convertDefinitions context.name context.definitions := by
    intro table
    simp only [switchOn, HashSwitch.select, List.find?_map, Option.map_map]
    rfl
  have hswitch : switchOn [("general", convertPaioGeneralDefinitions),
      ("posix", convertPosixDefinitions), ("posix_meta", convertPosixMetaDefinitions),
      ("lsm_kvs_simple", convertPosixLsmSimpleDefinitions),
      ("lsm_kvs_detailed", convertPosixLsmDetailedDefinitions), ("kvs", convertKvsDefinitions)]
      contextType = _ := htables contextTables
  rw [convertDifferentiationDefinitions, hswitch]
  cases HashSwitch.select text hash contextTables contextType <;> rfl

/-! ## Different keywords -/

theorem distinct_housekeepingKeywords : Distinct text hash housekeepingKeywords :=
  ⟨by decide, by decide⟩

theorem distinct_drlKeywords : Distinct text hash drlKeywords :=
  ⟨by decide, by decide⟩

theorem distinct_contextKeywords : Distinct text hash contextKeywords :=
  ⟨by decide, by decide⟩

theorem nodup_contextTables : (contextTables.map fun c => hash (text c.1)).Nodup := by
  decide

theorem distinct_definitions : ∀ c ∈ contextTables, Distinct text hash c.2.definitions := by
  have hnodup : ∀ c ∈ contextTables, (c.2.definitions.map fun d => hash (text d.1)).Nodup ∧
      (c.2.definitions.map Prod.snd).Nodup := by decide +kernel
  exact fun c hc => ⟨(hnodup c hc).1, (hnodup c hc).2⟩

theorem definition_ne_neg_one : ∀ c ∈ contextTables, ∀ d ∈ c.2.definitions, d.2 ≠ -1 := by
  decide

/-! ## Recognition -/

theorem convertHousekeepingOperation_recognises (s : Text) :
    Recognises text housekeepingKeywords id .noOp convertHousekeepingOperation s ↔
      Uncollided text hash housekeepingKeywords s := by
  refine HashSwitch.recognises_iff distinct_housekeepingKeywords Function.injective_id ?_ ?_
  · decide
  · rw [Option.map_id]
    rfl

theorem convertEnforcementOperation_recognises (s : Text) :
    Recognises text drlKeywords id 0 (convertEnforcementOperation .drl) s ↔
      Uncollided text hash drlKeywords s := by
  refine HashSwitch.recognises_iff distinct_drlKeywords Function.injective_id ?_ ?_
  · decide
  · rw [Option.map_id]
    rfl

theorem convertContextTypeDefinition_recognises (s : Text) :
    Recognises text contextKeywords id (-1) convertContextTypeDefinition s ↔
      Uncollided text hash contextKeywords s := by
  refine HashSwitch.recognises_iff distinct_contextKeywords Function.injective_id ?_ ?_
  · decide
  · rw [Option.map_id]
    rfl

/-- The definition is recognised by the converter of its context, and a context type that is none
gives `-1`. -/
def RecognisesDefinition (contextType s : Text) : Prop :=
  (∀ c ∈ contextTables, contextType = text c.1 →
    Recognises text c.2.definitions Except.ok (unknownDefinition c.2.name)
      (convertDifferentiationDefinitions contextType) s) ∧
  ((∀ c ∈ contextTables, contextType ≠ text c.1) →
    convertDifferentiationDefinitions contextType s = .ok (-1))

/-- A context that has the hash of a keyword gets the converter of the keyword. -/
theorem convertDifferentiationDefinitions_select {c : String × ContextDefinitions}
    (hc : c ∈ contextTables) {contextType : Text} (hh : hash (text c.1) = hash contextType)
    (s : Text) :
    convertDifferentiationDefinitions contextType s =
      convertDefinitions c.2.name c.2.definitions s := by
  rw [convertDifferentiationDefinitions_eq, HashSwitch.select_eq_some nodup_contextTables hc hh]
  rfl

/-- No converter of a context gives `-1`. -/
theorem convertDefinitions_ne_neg_one {c : String × ContextDefinitions} (hc : c ∈ contextTables)
    (s : Text) : convertDefinitions c.2.name c.2.definitions s ≠ .ok (-1) := by
  rw [convertDefinitions_eq]
  cases hs : HashSwitch.select text hash c.2.definitions s with
  | none =>
    intro heq
    cases heq
  | some v =>
    obtain ⟨d, hd, _, rfl⟩ := HashSwitch.exists_of_select hs
    intro heq
    exact definition_ne_neg_one c hc d hd (Except.ok.inj heq)

theorem convertDifferentiationDefinitions_recognises {c : String × ContextDefinitions}
    (hc : c ∈ contextTables) (s : Text) :
    Recognises text c.2.definitions Except.ok (unknownDefinition c.2.name)
        (convertDifferentiationDefinitions (text c.1)) s ↔
      Uncollided text hash c.2.definitions s := by
  refine HashSwitch.recognises_iff (distinct_definitions c hc) (fun _ _ => Except.ok.inj) ?_ ?_
  · intro d _ heq
    cases heq
  · rw [convertDifferentiationDefinitions_select hc rfl, convertDefinitions_eq]

theorem recognisesDefinition_iff (contextType s : Text) :
    RecognisesDefinition contextType s ↔
      Uncollided text hash contextTables contextType ∧
        ∀ c ∈ contextTables, contextType = text c.1 → Uncollided text hash c.2.definitions s := by
  constructor
  · rintro ⟨hdefinition, hother⟩
    refine ⟨?_, ?_⟩
    · intro c hc hh
      by_contra hne
      have hnone : ∀ c' ∈ contextTables, contextType ≠ text c'.1 := by
        rintro c' hc' rfl
        rw [List.inj_on_of_nodup_map nodup_contextTables hc hc' hh] at hne
        exact hne rfl
      refine convertDefinitions_ne_neg_one hc s ?_
      rw [← convertDifferentiationDefinitions_select hc hh, hother hnone]
    · rintro c hc rfl
      exact (convertDifferentiationDefinitions_recognises hc s).mp (hdefinition c hc rfl)
  · rintro ⟨hcontext, hdefinition⟩
    refine ⟨?_, ?_⟩
    · rintro c hc rfl
      exact (convertDifferentiationDefinitions_recognises hc s).mpr (hdefinition c hc rfl)
    · intro hnone
      rw [convertDifferentiationDefinitions_eq,
        HashSwitch.select_eq_none fun c hc hh => hnone c hc (hcontext c hc hh)]
      rfl

/-- Every converter is exact for the texts that collide with none of its keywords, and for no
others. -/
theorem keywords_recognised_iff (contextType s : Text) :
    (Recognises text housekeepingKeywords id .noOp convertHousekeepingOperation s ↔
      Uncollided text hash housekeepingKeywords s) ∧
    (Recognises text drlKeywords id 0 (convertEnforcementOperation .drl) s ↔
      Uncollided text hash drlKeywords s) ∧
    (Recognises text contextKeywords id (-1) convertContextTypeDefinition s ↔
      Uncollided text hash contextKeywords s) ∧
    (RecognisesDefinition contextType s ↔
      Uncollided text hash contextTables contextType ∧
        ∀ c ∈ contextTables, contextType = text c.1 → Uncollided text hash c.2.definitions s) :=
  ⟨convertHousekeepingOperation_recognises s, convertEnforcementOperation_recognises s,
    convertContextTypeDefinition_recognises s, recognisesDefinition_iff contextType s⟩

/-- Texts that are no keywords and are taken for `create_object`, `rate`, `kvs` and, in the
context `kvs`, `put`; and `posix` with a NUL and more after it. -/
theorem keyword_collisions :
    (convertHousekeepingOperation (text "crea6g_object") = .createObject ∧
      text "crea6g_object" ≠ text "create_object") ∧
    (convertEnforcementOperation .drl (text "ra6g") = 2 ∧ text "ra6g" ≠ text "rate") ∧
    (convertContextTypeDefinition (text "k4q") = 5 ∧ text "k4q" ≠ text "kvs") ∧
    (convertContextTypeDefinition (text "posix" ++ [0, 120]) = 1 ∧
      text "posix" ++ [0, 120] ≠ text "posix") ∧
    (convertDifferentiationDefinitions (text "kvs") (text "p3r") = .ok 1 ∧
      text "p3r" ≠ text "put") := by
  decide

end RulesParser

end Paio
