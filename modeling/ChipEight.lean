import ChipEight.Main
import ChipEight.Proofs.Effect
import ChipEight.Proofs.Encoding
import ChipEight.Proofs.Bounds
import ChipEight.Proofs.Failure
import ChipEight.Proofs.Subroutine
import ChipEight.Proofs.Footprint
import ChipEight.Proofs.LifeCycle
import ChipEight.Proofs.AudioGate
import ChipEight.Proofs.Picture
import ChipEight.Proofs.Lockstep
import ChipEight.Proofs.Unseen
import ChipEight.Proofs.Interleaving
import ChipEight.Proofs.Keyboard
import ChipEight.Proofs.Sprite
import ChipEight.Proofs.Arithmetic
import ChipEight.Proofs.Font
import ChipEight.Proofs.Launch
import ChipEight.Proofs.Cadence
import ChipEight.Proofs.Overdraw
import ChipEight.Proofs.Storage
import ChipEight.Proofs.FullPeriod
import ChipEight.Proofs.ControlFlow
import ChipEight.Proofs.Polling
import ChipEight.Proofs.Loading
import ChipEight.Proofs.BoundedList
import ChipEight.Proofs.Access
import ChipEight.Proofs.Numeral
import ChipEight.Proofs.UsableRate
import ChipEight.Proofs.Tally
import ChipEight.Proofs.Accounts
import ChipEight.Proofs.Grid
