import SqlLexis.FileTree
import SqlLexis.Main
import SqlLexis.Proofs.Gap
import SqlLexis.Proofs.Lookahead
import SqlLexis.Proofs.Numeral
import SqlLexis.Proofs.Lexeme
import SqlLexis.Proofs.Calls
import SqlLexis.Proofs.LexerState
import SqlLexis.Proofs.Stream
import SqlLexis.Proofs.Lossless
import SqlLexis.Proofs.Displacement
import SqlLexis.Proofs.Concatenation
import SqlLexis.Proofs.Respacing
import SqlLexis.Proofs.Refilling
import SqlLexis.Proofs.Agreement
import SqlLexis.Proofs.Faults
import SqlLexis.Proofs.Renaming
import SqlLexis.Proofs.Lockstep
import SqlLexis.Proofs.Rewording
import SqlLexis.Proofs.Hints
import SqlLexis.Proofs.Extensions
import SqlLexis.Proofs.Classes
import SqlLexis.Proofs.Lines
import SqlLexis.Proofs.Caret
import SqlLexis.Proofs.Findings
import SqlLexis.Proofs.Neighbours
import SqlLexis.Proofs.NumberGrammar
import SqlLexis.Proofs.Requoting
import SqlLexis.Proofs.Skipping
import SqlLexis.Proofs.Columns
import SqlLexis.Proofs.ReservedWords
import SqlLexis.Proofs.Rows
import SqlLexis.Proofs.LineRanges
import SqlLexis.Proofs.NumberEnds
import SqlLexis.Proofs.Tallies
