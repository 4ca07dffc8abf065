import PyModules.Lte.Lifecycle
import PyModules.Lte.Link
import PyModules.Lte.Buffers
import PyModules.Lte.FailureTable
import PyModules.Lte.ResultCodes
import PyModules.Modbus.Slave
import PyModules.Modbus.Pairing
import PyModules.Modbus.Capacity
import PyModules.Modbus.Requests
import PyModules.Pwm.Paths
import PyModules.Pwm.Defaults
import PyModules.Pwm.Arithmetic
import PyModules.ErrorProtocol
import PyModules.Handles
import PyModules.Lte.Backlog
import PyModules.Lte.Settings
import PyModules.Lte.SearchCost
import PyModules.Lte.Listing
import PyModules.Modbus.Client
import PyModules.Pwm.Channels
import PyModules.Pwm.Transients
import PyModules.IxoraBoard
import PyModules.Process
import PyModules.Lte.Framing
import PyModules.Exceptions
