import Mathlib.Data.Nat.Digits.Defs
import Paio.Core
import Paio.Library.Words

/-!
# Paio.RulesParser

The parser of rules files (`RulesParser`). A file is read line by line, each line is cut into
tokens at spaces, and the rules are taken from the tokens by position. Keywords are recognised by a
hash of the token: a `switch` over the hashes of the keywords, here a list that is searched for an
equal hash.

Texts are lists of bytes, as `std::string` has them. A token that is missing is
`ParseFault.outOfBounds`; the other faults are exceptions that leave the parser.
-/

namespace Paio

abbrev Text := List UInt8

/-- The bytes of an ASCII literal. -/
def text (s : String) : Text := s.toList.map fun c => UInt8.ofNat c.toNat

inductive ParseFault where
  | outOfBounds
  | invalidArgument
  | outOfRange
  | runtimeError (what : String)
  deriving DecidableEq, Repr

structure EnforcementRule where
  ruleId : UInt64 := 0
  channelId : Int := -1
  enforcementObjectId : Int := -1
  operationType : Int := 0
  configurations : List Int := []
  deriving DecidableEq, Repr

/-- `static_cast<long>` of an `EnforcementObjectType`. -/
def EnforcementObjectType.toLong : EnforcementObjectType → Int
  | .drl => 1
  | .noop => 0

/-! ## Numbers -/

/-- `isspace` in the C locale. -/
def isSpace (c : UInt8) : Bool := c = 32 || (9 ≤ c && c ≤ 13)

def isDigit (c : UInt8) : Bool := 48 ≤ c && c ≤ 57

/-- What `strtol` and `strtoull` read: spaces, a sign, and the longest run of digits; `none` when
there are no digits. -/
def readNumber (s : Text) : Option (Bool × Nat) :=
  let body := s.dropWhile isSpace
  let negative := decide (body.head? = some 45)
  let digits :=
    (if body.head? = some 45 ∨ body.head? = some 43 then body.tail else body).takeWhile isDigit
  if digits = [] then none
  else some (negative, Nat.ofDigits 10 (digits.reverse.map fun c => c.toNat - 48))

/-- `std::stol`. -/
def stol (s : Text) : Except ParseFault Int :=
  match readNumber s with
  | none => .error .invalidArgument
  | some (negative, magnitude) =>
    let value : Int := if negative then -magnitude else magnitude
    if -2 ^ 63 ≤ value ∧ value < 2 ^ 63 then .ok value else .error .outOfRange

/-- `std::stoull`: a negative number is taken modulo `2^64`. -/
def stoull (s : Text) : Except ParseFault UInt64 :=
  match readNumber s with
  | none => .error .invalidArgument
  | some (negative, magnitude) =>
    if magnitude < 2 ^ 64 then
      .ok (if negative then -UInt64.ofNat magnitude else UInt64.ofNat magnitude)
    else .error .outOfRange

/-- A number as `std::to_string` writes it. -/
def natText (n : Nat) : Text :=
  if n = 0 then [48] else (Nat.digits 10 n).reverse.map fun d => UInt8.ofNat (48 + d)

def decimalText (x : Int) : Text := if x < 0 then 45 :: natText x.natAbs else natText x.natAbs

theorem toNat_digit {d : Nat} (h : d < 10) : (UInt8.ofNat (48 + d)).toNat = 48 + d := by
  rw [UInt8.toNat_ofNat']
  omega

theorem natText_ne_nil (n : Nat) : natText n ≠ [] := by
  unfold natText
  split
  · simp
  · rename_i hn
    simpa [Nat.digits_ne_nil_iff_ne_zero] using hn

theorem mem_natText {n : Nat} {c : UInt8} (h : c ∈ natText n) : isDigit c = true := by
  have hdigit : 48 ≤ c.toNat ∧ c.toNat ≤ 57 := by
    unfold natText at h
    split at h
    · rw [List.mem_singleton.mp h]
      decide
    · obtain ⟨d, hd, rfl⟩ := List.mem_map.mp h
      have hlt := Nat.digits_lt_base (by decide) (List.mem_reverse.mp hd)
      rw [toNat_digit hlt]
      omega
  simpa [isDigit, UInt8.le_iff_toNat_le] using hdigit

theorem ofDigits_natText (n : Nat) :
    Nat.ofDigits 10 ((natText n).reverse.map fun c => c.toNat - 48) = n := by
  unfold natText
  split
  · rename_i hn
    rw [hn]
    decide
  · rw [← List.map_reverse, List.reverse_reverse, List.map_map]
    have hmap : (Nat.digits 10 n).map ((fun c : UInt8 => c.toNat - 48) ∘ fun d =>
        UInt8.ofNat (48 + d)) = Nat.digits 10 n := by
      refine (List.map_congr_left fun d hd => ?_).trans (List.map_id _)
      have hlt := Nat.digits_lt_base (by decide) hd
      simp only [Function.comp_apply, toNat_digit hlt, id_eq]
      omega
    rw [hmap, Nat.ofDigits_digits]

theorem not_isSpace_of_isDigit {c : UInt8} (h : isDigit c = true) :
    isSpace c = false ∧ c ≠ 45 ∧ c ≠ 43 ∧ c ≠ 32 := by
  simp only [isDigit, isSpace, UInt8.le_iff_toNat_le, ← UInt8.toNat_inj, Bool.and_eq_true,
    decide_eq_true_eq, Bool.or_eq_false_iff, decide_eq_false_iff_not, ne_eq] at *
  simp at *
  omega

/-- A number is one word. -/
theorem word_natText (n : Nat) : natText n ≠ [] ∧ 32 ∉ natText n :=
  ⟨natText_ne_nil n, fun h => (not_isSpace_of_isDigit (mem_natText h)).2.2.2 rfl⟩

theorem word_decimalText (x : Int) : decimalText x ≠ [] ∧ 32 ∉ decimalText x := by
  unfold decimalText
  split
  · refine ⟨by simp, ?_⟩
    simp [(word_natText x.natAbs).2]
  · exact word_natText x.natAbs

/-- The digits of a number, read without a sign. -/
theorem readNumber_natText (n : Nat) : readNumber (natText n) = some (false, n) := by
  obtain ⟨c, rest, hcons⟩ := List.exists_cons_of_ne_nil (natText_ne_nil n)
  have hc : isDigit c = true := mem_natText (by rw [hcons]; exact List.mem_cons_self)
  obtain ⟨hspace, hminus, hplus, _⟩ := not_isSpace_of_isDigit hc
  have hbody : (natText n).dropWhile isSpace = natText n := by
    rw [hcons, List.dropWhile_cons, hspace]
    rfl
  have hhead : (natText n).head? = some c := by rw [hcons]; rfl
  have htake : (natText n).takeWhile isDigit = natText n :=
    List.takeWhile_eq_self_iff.mpr fun x hx => mem_natText hx
  simp only [readNumber, hbody, hhead, Option.some.injEq, hminus, hplus, or_self, if_false, htake,
    natText_ne_nil, ofDigits_natText, decide_false]

theorem readNumber_minus (n : Nat) : readNumber (45 :: natText n) = some (true, n) := by
  have hbody : (45 :: natText n).dropWhile isSpace = 45 :: natText n := by
    rw [List.dropWhile_cons]
    rfl
  have htake : (natText n).takeWhile isDigit = natText n :=
    List.takeWhile_eq_self_iff.mpr fun x hx => mem_natText hx
  simp only [readNumber, hbody, List.head?_cons, true_or, if_true, List.tail_cons, htake,
    natText_ne_nil, if_false, ofDigits_natText, decide_true]

/-- A `long` that is written in decimal reads back as itself. -/
theorem stol_decimalText {x : Int} (h : -2 ^ 63 ≤ x ∧ x < 2 ^ 63) :
    stol (decimalText x) = .ok x := by
  by_cases hneg : x < 0
  · have hvalue : -(x.natAbs : Int) = x := by omega
    rw [decimalText, if_pos hneg, stol, readNumber_minus]
    simp only [if_true, hvalue, h, and_self]
  · have hvalue : (x.natAbs : Int) = x := by omega
    rw [decimalText, if_neg hneg, stol, readNumber_natText]
    simp only [Bool.false_eq_true, if_false, hvalue, h, and_self, if_true]

theorem stoull_natText (x : UInt64) : stoull (natText x.toNat) = .ok x := by
  unfold stoull
  rw [readNumber_natText]
  simp only [x.toNat_lt, if_true, Bool.false_eq_true, if_false, UInt64.ofNat_toNat]

theorem bind_eq_ok {ε α β : Type} {x : Except ε α} {f : α → Except ε β} {b : β} :
    x >>= f = .ok b ↔ ∃ a, x = .ok a ∧ f a = .ok b := by
  cases x with
  | error e => simp [Bind.bind, Except.bind]
  | ok a => simp [Bind.bind, Except.bind]

namespace RulesParser

/-! ## Keywords -/

/-- A `char` as an `unsigned int`: bytes from 128 on are negative. -/
def charToUInt32 (c : UInt8) : UInt32 := UInt32.ofInt c.toInt8.toInt

/-- The hash of a text up to its first NUL. -/
def hash : Text → UInt32
  | [] => 10242048
  | c :: rest => if c = 0 then 10242048 else (hash rest * 33) ^^^ charToUInt32 c

/-- A `switch` over the hashes of keywords; `none` is the default branch. -/
def switchOn {α : Type} (cases : List (String × α)) (s : Text) : Option α :=
  (cases.find? fun c => hash (text c.1) = hash s).map Prod.snd

def convertHousekeepingOperation (operation : Text) : HousekeepingOperation :=
  (switchOn [("create_channel", .createChannel), ("create_object", .createObject)]
    operation).getD .noOp

def convertObjectType (objectType : Text) : EnforcementObjectType :=
  if objectType = text "drl" then .drl else .noop

def convertEnforcementOperation (objectType : EnforcementObjectType) (operation : Text) : Int :=
  match objectType with
  | .drl => (switchOn [("init", 1), ("rate", 2), ("refill", 4)] operation).getD 0
  | .noop => 0

def convertContextTypeDefinition (contextType : Text) : Int :=
  (switchOn [("general", 0), ("posix", 1), ("posix_meta", 2), ("lsm_kvs_simple", 3),
    ("lsm_kvs_detailed", 4), ("kvs", 5)] contextType).getD (-1)

/-- The converters of the definitions of one context: an unknown definition throws. -/
def convertDefinitions (name : String) (definitions : List (String × Int)) (definition : Text) :
    Except ParseFault Int :=
  match switchOn definitions definition with
  | some value => .ok value
  | none => .error (.runtimeError ("Unknown " ++ name ++ " function (hint: the " ++
      "request-type/request-context field does not match with the available elements of the " ++
      "chosen context-definition.)"))

def convertPaioGeneralDefinitions : Text → Except ParseFault Int :=
  convertDefinitions "PAIO_GENERAL"
    [("foreground", 1), ("background", 2), ("high_priority", 3), ("low_priority", 4),
     ("no_op", 0)]

def convertPosixLsmSimpleDefinitions : Text → Except ParseFault Int :=
  convertDefinitions "LSM_KVS_SIMPLE"
    [("bg_flush", 1), ("bg_compaction_high_priority", 2), ("bg_compaction_low_priority", 3),
     ("foreground", 4), ("background", 5), ("no_op", 0)]

def convertPosixLsmDetailedDefinitions : Text → Except ParseFault Int :=
  convertDefinitions "LSM_KVS_DETAILED"
    [("bg_flush", 1), ("bg_compaction", 2), ("bg_compaction_L0_L0", 3),
     ("bg_compaction_L0_L1", 4), ("bg_compaction_L1_L2", 5), ("bg_compaction_L2_L3", 6),
     ("bg_compaction_LN", 7), ("foreground", 8), ("no_op", 0)]

def convertPosixDefinitions : Text → Except ParseFault Int :=
  convertDefinitions "POSIX"
    [("read", 1), ("write", 2), ("pread", 3), ("pwrite", 4), ("pread64", 5), ("pwrite64", 6),
     ("fread", 7), ("fwrite", 8), ("open", 9), ("open64", 10), ("creat", 11), ("creat64", 12),
     ("openat", 13), ("close", 14), ("fsync", 15), ("fdatasync", 16), ("sync", 17),
     ("syncfs", 18), ("truncate", 19), ("ftruncate", 21), ("truncate64", 20),
     ("ftruncate64", 22), ("xstat", 23), ("lxstat", 25), ("fxstat", 27), ("xstat64", 24),
     ("lxstat64", 26), ("fxstat64", 28), ("fxstatat", 29), ("fxstatat64", 30), ("statfs", 31),
     ("fstatfs", 33), ("statfs64", 32), ("fstatfs64", 34), ("link", 35), ("linkat", 36),
     ("unlink", 37), ("unlinkat", 38), ("rename", 39), ("renameat", 40), ("symlink", 41),
     ("symlinkat", 42), ("readlink", 43), ("readlinkat", 44), ("fopen", 45), ("fopen64", 46),
     ("freopen", 48), ("freopen64", 49), ("fclose", 50), ("fflush", 51), ("access", 52),
     ("faccessat", 53), ("lseek", 54), ("lseek64", 55), ("fseek", 56), ("fseek64", 57),
     ("ftell", 58), ("fseeko", 59), ("fseeko64", 60), ("ftello", 61), ("ftello64", 62),
     ("mkdir", 63), ("mkdirat", 64), ("rmdir", 70), ("opendir", 67), ("readdir", 65),
     ("readdir64", 66), ("fdopendir", 68), ("closedir", 69), ("dirfd", 71), ("getxattr", 72),
     ("lgetxattr", 73), ("fgetxattr", 74), ("setxattr", 75), ("lsetxattr", 76),
     ("fsetxattr", 77), ("removexattr", 81), ("lremovexattr", 82), ("fremovexattr", 83),
     ("listxattr", 78), ("llistxattr", 79), ("flistxattr", 80), ("chmod", 84), ("fchmod", 85),
     ("fchmodat", 86), ("chown", 87), ("fchown", 89), ("fchownat", 90), ("lchown", 88),
     ("no_op", 0)]

def convertPosixMetaDefinitions : Text → Except ParseFault Int :=
  convertDefinitions "POSIX_META"
    [("foreground", 1), ("background", 2), ("high_priority", 3), ("med_priority", 4),
     ("low_priority", 5), ("data_op", 6), ("meta_op", 7), ("dir_op", 8), ("ext_attr_op", 9),
     ("file_mod_op", 10), ("no_op", 0)]

def convertKvsDefinitions : Text → Except ParseFault Int :=
  convertDefinitions "KVS"
    [("put", 1), ("get", 2), ("new_iterator", 3), ("delete", 4), ("write", 5),
     ("get_snapshot", 6), ("get_property", 7), ("get_approximate_size", 8),
     ("compact_range", 9), ("no_op", 0)]

def convertDifferentiationDefinitions (contextType definition : Text) : Except ParseFault Int :=
  match switchOn [("general", convertPaioGeneralDefinitions), ("posix", convertPosixDefinitions),
      ("posix_meta", convertPosixMetaDefinitions),
      ("lsm_kvs_simple", convertPosixLsmSimpleDefinitions),
      ("lsm_kvs_detailed", convertPosixLsmDetailedDefinitions),
      ("kvs", convertKvsDefinitions)] contextType with
  | some convert => convert definition
  | none => .ok (-1)

/-! ## Files -/

def space : UInt8 := 32

/-- The lines that `std::getline` reads: a newline at the end of the file starts no line. -/
def getLines (content : Text) : List Text :=
  let lines := content.splitOn 10
  if lines.getLast? = some [] then lines.dropLast else lines

/-- `parse_rule`: the tokens between spaces. -/
def parseRule (rule : Text) : List Text := Words.words (fun c => c = space) rule

/-- The staged rules of a file, `none` for a file that cannot be opened. -/
def readRulesFromFile : Option Text → List (List Text)
  | none => []
  | some content => (getLines content).map parseRule

/-! ## Rules -/

/-- `staged_rule[i]`. -/
def field (stagedRule : List Text) (i : Nat) : Except ParseFault Text :=
  match stagedRule[i]? with
  | some token => .ok token
  | none => .error .outOfBounds

def createChannelRulesMinElements : Int := 7

def createObjectRulesMinElements : Int := 8

/-- The rule of a staged line, if the line is a complete `create_channel` rule. -/
def createChannelRule (stagedRule : List Text) : Except ParseFault (Option HousekeepingRule) := do
  let operation ← field stagedRule 1
  if convertHousekeepingOperation operation = .createChannel then
    if toInt32 stagedRule.length < createChannelRulesMinElements then
      pure none
    else
      let contextType ← field stagedRule 3
      let workflow ← stol (← field stagedRule 4)
      let operationType ← convertDifferentiationDefinitions contextType (← field stagedRule 5)
      let operationContext ← convertDifferentiationDefinitions contextType (← field stagedRule 6)
      let ruleId ← stoull (← field stagedRule 0)
      let channelId ← stol (← field stagedRule 2)
      pure (some
        { ruleId := ruleId
          ruleType := .createChannel
          channelId := channelId
          enforcementObjectId := -1
          properties := [convertContextTypeDefinition contextType, workflow, operationType,
            operationContext] })
  else pure none

/-- The rule of a staged line, if the line is a complete `create_object` rule. The two initial
values are read although the check only asks for eight elements. -/
def createObjectRule (stagedRule : List Text) : Except ParseFault (Option HousekeepingRule) := do
  let operation ← field stagedRule 1
  if convertHousekeepingOperation operation = .createObject then
    if toInt32 stagedRule.length < createObjectRulesMinElements then
      pure none
    else
      let contextType ← field stagedRule 4
      let operationType ← convertDifferentiationDefinitions contextType (← field stagedRule 5)
      let operationContext ← convertDifferentiationDefinitions contextType (← field stagedRule 6)
      let objectType ← field stagedRule 7
      let first ← stol (← field stagedRule 8)
      let second ← stol (← field stagedRule 9)
      let ruleId ← stoull (← field stagedRule 0)
      let channelId ← stol (← field stagedRule 2)
      let objectId ← stol (← field stagedRule 3)
      pure (some
        { ruleId := ruleId
          ruleType := .createObject
          channelId := channelId
          enforcementObjectId := objectId
          properties := [convertContextTypeDefinition contextType, operationType, operationContext,
            EnforcementObjectType.toLong (convertObjectType objectType), first, second] })
  else pure none

/-- The rule of a staged line. The values of `refill` are not read. -/
def enforcementRule (stagedRule : List Text) : Except ParseFault (Option EnforcementRule) := do
  let objectType ← field stagedRule 3
  let operation ← field stagedRule 4
  let operationType := convertEnforcementOperation (convertObjectType objectType) operation
  let configurations ←
    if operationType = 1 then do
      let refillPeriod ← stol (← field stagedRule 5)
      let rate ← stol (← field stagedRule 6)
      pure [refillPeriod, rate]
    else if operationType = 2 then do
      let value ← stol (← field stagedRule 5)
      pure [value]
    else pure []
  let ruleId ← stoull (← field stagedRule 0)
  let channelId ← stol (← field stagedRule 1)
  let objectId ← stol (← field stagedRule 2)
  pure (some
    { ruleId := ruleId
      channelId := channelId
      enforcementObjectId := objectId
      operationType := operationType
      configurations := configurations })

/-- The loop over the staged rules: it goes on until as many rules as wanted were passed on. -/
def collectRules {ρ : Type} (convert : List Text → Except ParseFault (Option ρ))
    (totalRules : Int) : Int → List (List Text) → Except ParseFault (List ρ)
  | _, [] => .ok []
  | rulesPassed, stagedRule :: rest =>
    match convert stagedRule with
    | .error f => .error f
    | .ok none => collectRules convert totalRules rulesPassed rest
    | .ok (some rule) =>
      if rulesPassed + 1 = totalRules then .ok [rule]
      else
        match collectRules convert totalRules (rulesPassed + 1) rest with
        | .ok rules => .ok (rule :: rules)
        | .error f => .error f

/-- `-1` stands for the largest `int`. -/
def limit (totalRules : Int) : Int := if totalRules = -1 then 2 ^ 31 - 1 else totalRules

def getCreateChannelRules (stagedRules : List (List Text)) (totalRules : Int) :
    Except ParseFault (List HousekeepingRule) :=
  collectRules createChannelRule (limit totalRules) 0 stagedRules

def getCreateObjectRules (stagedRules : List (List Text)) (totalRules : Int) :
    Except ParseFault (List HousekeepingRule) :=
  collectRules createObjectRule (limit totalRules) 0 stagedRules

def getEnforcementRules (stagedRules : List (List Text)) (totalRules : Int) :
    Except ParseFault (List EnforcementRule) :=
  collectRules enforcementRule (limit totalRules) 0 stagedRules

end RulesParser

end Paio
