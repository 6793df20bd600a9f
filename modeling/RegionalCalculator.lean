import RegionalCalculator.Format.Named
import RegionalCalculator.Number.Text
import RegionalCalculator.Evaluation
import RegionalCalculator.Session.Window
import RegionalCalculator.Proofs.Reading.Grammar
import RegionalCalculator.Proofs.Reading.FlatScan
import RegionalCalculator.Proofs.Scanning.Exchange
import RegionalCalculator.Proofs.Scanning.Tiling
import RegionalCalculator.Proofs.Writing.Logical
import RegionalCalculator.Proofs.Writing.Display
import RegionalCalculator.Proofs.Writing.Tree
import RegionalCalculator.Proofs.Writing.OneFormat
import RegionalCalculator.Proofs.Number.LiteralSign
import RegionalCalculator.Proofs.Reading.Detachment
import RegionalCalculator.Proofs.Scanning.Loosening
import RegionalCalculator.Proofs.Reading.Working
import RegionalCalculator.Proofs.Session.Keypad
import RegionalCalculator.Proofs.Writing.TokenText
import RegionalCalculator.Proofs.Reading.Cause
import RegionalCalculator.Proofs.Reading.Prolongation
import RegionalCalculator.Proofs.Reading.LiteralFaults
import RegionalCalculator.Proofs.Scanning.Spacing
import RegionalCalculator.Proofs.Scanning.Grouping
import RegionalCalculator.Proofs.Reading.Marks
import RegionalCalculator.Proofs.Session.Setting
import RegionalCalculator.Proofs.Session.Panel
import RegionalCalculator.Proofs.Session.Undoing
import RegionalCalculator.Proofs.Writing.Composition
import RegionalCalculator.Proofs.Writing.Height
import RegionalCalculator.Proofs.Number.Integer
import RegionalCalculator.Proofs.Writing.HiddenDecimals
import RegionalCalculator.Proofs.Writing.Canonical
import RegionalCalculator.Proofs.Number.Normalization
import RegionalCalculator.Proofs.Scanning.Erasing
import RegionalCalculator.Proofs.Scanning.Pulling
