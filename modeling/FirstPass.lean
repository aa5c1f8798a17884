import FirstPass.Main
import FirstPass.Proofs.Reading
import FirstPass.Proofs.Lexicon
import FirstPass.Proofs.SymbolTable
import FirstPass.Proofs.Effects
import FirstPass.Proofs.Runs
import FirstPass.Proofs.References
import FirstPass.Proofs.Labels
import FirstPass.Proofs.Storage
import FirstPass.Proofs.Values
import FirstPass.Proofs.Vocabulary
import FirstPass.Proofs.Atomicity
import FirstPass.Proofs.Moves
import FirstPass.Proofs.Phases
import FirstPass.Proofs.Association
import FirstPass.Proofs.Numerals
import FirstPass.Proofs.Signs
import FirstPass.Proofs.Lockstep
import FirstPass.Proofs.Words
import FirstPass.Proofs.Renaming
import FirstPass.Proofs.Relocation
import FirstPass.Proofs.RelocatedPrograms
import FirstPass.Proofs.RenamedRuns
import FirstPass.Proofs.Classification
import FirstPass.Proofs.SymbolNames
import FirstPass.Proofs.Utf8
import FirstPass.Proofs.SourceFiles
import FirstPass.Proofs.Continuation
import FirstPass.Proofs.FileEffects
import FirstPass.Proofs.ProgramWords
import FirstPass.Proofs.ListingLines
import FirstPass.Proofs.PrintedTable
import FirstPass.Proofs.Grammar
import FirstPass.Proofs.Evaluation
import FirstPass.Proofs.Destinations
import FirstPass.Proofs.Equations
import FirstPass.Proofs.Events
import FirstPass.Proofs.Lexing
import FirstPass.Proofs.Spacing
import FirstPass.Proofs.Arithmetic
import FirstPass.Proofs.Verdicts
import FirstPass.Proofs.Digits
