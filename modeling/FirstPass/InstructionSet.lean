import FirstPass.Lexicon
import FirstPass.Text.Decimal

namespace FirstPass

/-!
Instruction sets.

An instruction set names mnemonics, registers and condition codes.  A
mnemonic has an operation code, a category, and a role in the first pass.
The role depends on the name alone: five names direct the assembler, whatever
code and category they are given, and every other mnemonic stands for one
word of the program.
-/

/-- The categories of mnemonics, as they are shown in intermediate code. -/
inductive Category
  | imperative
  | declarative
  | directive
deriving DecidableEq, Repr

def Category.text : Category → String
  | .imperative => "IS"
  | .declarative => "DL"
  | .directive => "AD"

/-- What a mnemonic makes the first pass do. -/
inductive Role
  | start
  | finish
  | origin
  | equate
  | reserve
  | plain
deriving DecidableEq, Repr

def Role.ofMnemonic (mnemonic : String) : Role :=
  if mnemonic = "START" then .start
  else if mnemonic = "END" then .finish
  else if mnemonic = "ORIGIN" then .origin
  else if mnemonic = "EQU" then .equate
  else if mnemonic = "DS" then .reserve
  else .plain

/-- The code of an operation. -/
structure Opcode where
  value : UInt8
deriving DecidableEq, Repr

/-- Operation codes have at least two digits. -/
def Opcode.text (opcode : Opcode) : String :=
  Decimal.twoDigits opcode.value.toNat

/-- The code of a register or of a condition. -/
structure OperandCode where
  value : UInt8
deriving DecidableEq, Repr

def OperandCode.text (code : OperandCode) : String :=
  code.value.toNat.repr

/-- What an instruction set says about a mnemonic. -/
structure Descriptor where
  opcode : Opcode
  category : Category
  role : Role
deriving DecidableEq, Repr

structure InstructionSet where
  instructions : Lexicon Descriptor := ∅
  registers : Lexicon OperandCode := ∅
  conditions : Lexicon OperandCode := ∅
deriving DecidableEq, Repr

namespace InstructionSet

def empty : InstructionSet := {}

/-- Define a mnemonic.  Its role follows from its name. -/
def addInstruction (set : InstructionSet) (name : String) (code : UInt8) (category : Category) :
    InstructionSet :=
  { set with instructions := set.instructions.insert name ⟨⟨code⟩, category, Role.ofMnemonic name⟩ }

def addRegister (set : InstructionSet) (name : String) (code : UInt8) : InstructionSet :=
  { set with registers := set.registers.insert name ⟨code⟩ }

def addCondition (set : InstructionSet) (name : String) (code : UInt8) : InstructionSet :=
  { set with conditions := set.conditions.insert name ⟨code⟩ }

def instruction? (set : InstructionSet) (name : String) : Option Descriptor :=
  set.instructions.find? name

def register? (set : InstructionSet) (name : String) : Option OperandCode :=
  set.registers.find? name

def condition? (set : InstructionSet) (name : String) : Option OperandCode :=
  set.conditions.find? name

/-- The mnemonics with their descriptors, in alphabetical order. -/
def mnemonics (set : InstructionSet) : List (String × Descriptor) :=
  set.instructions.toList

def standardInstructions : List (String × UInt8 × Category) :=
  [("STOP", 0, .imperative), ("ADD", 1, .imperative), ("SUB", 2, .imperative),
    ("MULT", 3, .imperative), ("MOVER", 4, .imperative), ("MOVEM", 5, .imperative),
    ("COMP", 6, .imperative), ("BC", 7, .imperative), ("DIV", 8, .imperative),
    ("READ", 9, .imperative), ("PRINT", 10, .imperative),
    ("DC", 1, .declarative), ("DS", 2, .declarative),
    ("START", 1, .directive), ("END", 2, .directive), ("ORIGIN", 3, .directive),
    ("EQU", 4, .directive), ("LTORG", 5, .directive)]

def standardRegisters : List (String × UInt8) :=
  [("AREG", 1), ("BREG", 2), ("CREG", 3), ("DREG", 4)]

def standardConditions : List (String × UInt8) :=
  [("LT", 1), ("LE", 2), ("EQ", 3), ("GT", 4), ("GE", 5), ("ANY(NE)", 6)]

/-- The instruction set of the machine that programs are assembled for. -/
def standard : InstructionSet :=
  let withInstructions := standardInstructions.foldl
    (fun set (name, code, category) => set.addInstruction name code category) empty
  let withRegisters := standardRegisters.foldl
    (fun set (name, code) => set.addRegister name code) withInstructions
  standardConditions.foldl (fun set (name, code) => set.addCondition name code) withRegisters

end InstructionSet
end FirstPass
