import Chip8.Assembly.Basic
import Chip8.Assembly.Passes
import Chip8.Command.Run
import Chip8.Layout.History
import Chip8.Listing
import Chip8.Main
import Chip8.Proofs.Assembly.Acceptance
import Chip8.Proofs.Assembly.Addresses
import Chip8.Proofs.Printing.Listing
import Chip8.Proofs.Assembly.Labels
import Chip8.Proofs.Splitting.Longest
import Chip8.Proofs.Splitting.Lossless
import Chip8.Proofs.Joining.Programs
import Chip8.Proofs.Joining.Splitting
import Chip8.Proofs.Joining.Texts
import Chip8.Proofs.Encoding.Forms
import Chip8.Proofs.Encoding.Images
import Chip8.Proofs.Printing.RoundTrip
import Chip8.Proofs.Moved.Texts
import Chip8.Proofs.Warnings.Texts
import Chip8.Proofs.Command.Run
import Chip8.Proofs.Assembly.Passes
import Chip8.Proofs.Splitting.Malformed
import Chip8.Proofs.Grammar.Machine
import Chip8.Proofs.Grammar.Viable
import Chip8.Proofs.Grammar.Leading
import Chip8.Proofs.Grammar.Progress
import Chip8.Proofs.Assembly.Positions
import Chip8.Proofs.Assembly.Resuming
import Chip8.Proofs.Encoding.Exact
import Chip8.Proofs.Renaming.Basic
import Chip8.Proofs.Renaming.Passes
import Chip8.Proofs.Relocation.Layouts
import Chip8.Proofs.Relocation.Texts
import Chip8.Proofs.Assembly.Stopping
import Chip8.Proofs.Joining.Tokens
import Chip8.Proofs.Warnings.Overlap
import Chip8.Proofs.Command.Numbers
import Chip8.Proofs.Layout.Histories
import Chip8.Proofs.Command.Verbosity
import Chip8.Proofs.Command.Source
import Chip8.Proofs.Listing.Output
