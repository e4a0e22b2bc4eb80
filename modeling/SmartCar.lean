import SmartCar.FindLines.RowAccess
import SmartCar.FindLines.Crossing
import SmartCar.FindLines.Midline
import SmartCar.FindLines.NearestEdges
import SmartCar.FindLines.SmallTurns
import SmartCar.FindLines.Probes
import SmartCar.FindLines.BorderFill
import SmartCar.FindLines.TurnMirror
import SmartCar.FindLines.CornerRecords
import SmartCar.FindLines.Symmetry
import SmartCar.FindLines.Independence
import SmartCar.Imperative.History
import SmartCar.Numeric.Mean
import SmartCar.Distinguish.Straight
import SmartCar.Distinguish.SteerError
import SmartCar.Distinguish.Slew
import SmartCar.Distinguish.Histories
import SmartCar.Distinguish.StopLine
import SmartCar.Distinguish.Taper
import SmartCar.ImageProcess.MeanFilter
import SmartCar.ImageProcess.MeanThreshold
import SmartCar.ImageProcess.Otsu
import SmartCar.Kernel.Interrupts
import SmartCar.Actuators.Pwm
import SmartCar.Actuators.Bridge
import SmartCar.Actuators.Pid
import SmartCar.Actuators.PidForms
import SmartCar.Actuators.Chassis
import SmartCar.Actuators.Sampling
import SmartCar.Util.Literals
import SmartCar.Buttons.NaturalTime
import SmartCar.Buttons.Keys
import SmartCar.Util.Upload
import SmartCar.Blink.Schedule
import SmartCar.Camera.Rounds
