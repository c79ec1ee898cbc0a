import SpokenCommand.Daemon
import SpokenCommand.Event.Document
import SpokenCommand.Grammar.Render
import SpokenCommand.Main
import SpokenCommand.Proofs.Activation.Lasting
import SpokenCommand.Proofs.Activation.Observer
import SpokenCommand.Proofs.Activation.Overlay
import SpokenCommand.Proofs.Activation.Refusals
import SpokenCommand.Proofs.Activation.Restoring
import SpokenCommand.Proofs.Grammar.Caret
import SpokenCommand.Proofs.Grammar.Layout
import SpokenCommand.Proofs.Grammar.Narrowing
import SpokenCommand.Proofs.Grammar.Referring
import SpokenCommand.Proofs.Grammar.RoundTrip
import SpokenCommand.Proofs.Grammar.Speaking
import SpokenCommand.Proofs.Modes.Breakdown
import SpokenCommand.Proofs.Modes.Demands
import SpokenCommand.Proofs.Modes.WellFormed
import SpokenCommand.Proofs.Playback.Interleaving
import SpokenCommand.Proofs.Script.Composing
import SpokenCommand.Proofs.Session.Failing
import SpokenCommand.Proofs.Session.Grid
import SpokenCommand.Proofs.Session.Keeping
import SpokenCommand.Proofs.Session.Switching
import SpokenCommand.Proofs.Session.Waking
